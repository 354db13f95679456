import Mathlib.Data.List.Induction
import Summoners.Cli.SessionRun

/-! # What a session has told

A session that keeps its log: the actions it submitted, the states they led to, what each seat was
shown of them, and who was answered.
-/

namespace Summoners.Cli.Server
set_option autoImplicit false

open Checked Protocol

/-! ## The log -/

section
variable {σ κ : Type}

/-- The state that a recorded step led to. -/
def Handled.after (h : Handled σ κ) : Option GameState :=
  match h.reaction.submitted with
  | some (_, .ok _) => some h.reaction.session.recorder.state
  | _ => none

/-- The states a match has gone through, from its first. -/
def states (initial : GameState) (log : List (Handled σ κ)) : List GameState :=
  initial :: log.filterMap Handled.after

def Handled.submitted (h : Handled σ κ) : Option (GameAction × Except RecordingError RecordedStep) :=
  h.reaction.submitted

/-- The actions submitted to the recorder, with its answers. -/
def submissions (log : List (Handled σ κ)) : List (GameAction × Except RecordingError RecordedStep) :=
  log.filterMap Handled.submitted

def messages (log : List (Handled σ κ)) : List (κ × ServerEnvelope) :=
  log.flatMap (fun h => h.reaction.sent)

/-- The number of the request, if it comes from the seat. -/
def requestOf (seat : Seat) : SessionEvent κ → Option ℕ
  | .submit seat' requestId _ _ => if seat' = seat then some requestId else none
  | _ => none

/-- The numbers of the requests taken from a seat. -/
def requestsOf (seat : Seat) (log : List (Handled σ κ)) : List ℕ :=
  log.filterMap (fun h => h.event.bind (fun event => requestOf seat event.2))

theorem requestOf_submit {seat seat' : Seat} {requestId id basedOnRevision : ℕ} {wire : ActionV1}
    (h : requestOf seat' (.submit seat requestId basedOnRevision wire : SessionEvent κ) = some id) :
    seat' = seat ∧ id = requestId := by
  change (if seat = seat' then some requestId else none) = some id at h
  by_cases hsame : seat = seat'
  · rw [if_pos hsame] at h
    exact ⟨hsame.symm, (Option.some.inj h).symm⟩
  · rw [if_neg hsame] at h
    cases h

variable {initial : GameState} {log : List (Handled σ κ)} {before : Session σ κ} {c : κ}
  {event : SessionEvent κ} {r : Reaction σ κ}

theorem states_concat_none (entry : Handled σ κ) (h : entry.after = none) :
    states initial (log ++ [entry]) = states initial log := by
  unfold states
  rw [List.filterMap_append, List.filterMap_cons_none h, List.filterMap_nil, List.append_nil]

theorem states_concat_some (entry : Handled σ κ) {state : GameState} (h : entry.after = some state) :
    states initial (log ++ [entry]) = states initial log ++ [state] := by
  unfold states
  rw [List.filterMap_append, List.filterMap_cons_some h, List.filterMap_nil, List.cons_append]

theorem submissions_concat_none (entry : Handled σ κ) (h : entry.submitted = none) :
    submissions (log ++ [entry]) = submissions log := by
  unfold submissions
  rw [List.filterMap_append, List.filterMap_cons_none h, List.filterMap_nil, List.append_nil]

theorem submissions_concat_some (entry : Handled σ κ)
    {submission : GameAction × Except RecordingError RecordedStep}
    (h : entry.submitted = some submission) :
    submissions (log ++ [entry]) = submissions log ++ [submission] := by
  unfold submissions
  rw [List.filterMap_append, List.filterMap_cons_some h, List.filterMap_nil]

theorem messages_concat (entry : Handled σ κ) :
    messages (log ++ [entry]) = messages log ++ entry.reaction.sent := by
  unfold messages
  rw [List.flatMap_append, List.flatMap_singleton]

theorem mem_requestsOf_concat {seat : Seat} {requestId : ℕ} :
    requestId ∈ requestsOf seat (log ++ [⟨before, some (c, event), r⟩]) ↔
      requestId ∈ requestsOf seat log ∨ requestOf seat event = some requestId := by
  unfold requestsOf
  rw [List.filterMap_append, List.mem_append]
  refine or_congr_right ?_
  cases hrequest : requestOf seat event with
  | none => simp [hrequest]
  | some found => simp [hrequest, eq_comm]

theorem occupied_iff {clients : Seat → Option κ} :
    occupied clients = true ↔ ∀ seat, (clients seat).isSome = true := by
  unfold occupied seats
  simp only [List.all_cons, List.all_nil, Bool.and_true, Bool.and_eq_true]
  constructor
  · rintro ⟨hone, htwo⟩ (_ | _)
    · exact hone
    · exact htwo
  · exact fun h => ⟨h .one, h .two⟩

/-- A seat more does not empty another. -/
theorem occupied_update {clients : Seat → Option κ} {seat : Seat} {client : κ}
    (h : occupied clients = true) : occupied (Function.update clients seat (some client)) = true := by
  rw [occupied_iff] at h ⊢
  intro other
  by_cases hsame : other = seat
  · subst hsame
    rw [Function.update_self]
    rfl
  · rw [Function.update_of_ne hsame]
    exact h other

end

/-! ## The invariant -/

section
variable {σ κ : Type} [DecidableEq κ]

/-- The session and its log agree. -/
structure Told (descriptions : CardDescriptions) (serde : Serde) (sink : Sink σ)
    (m₀ : RecordedMatch σ) (initial : GameState) (w : World σ κ) : Prop where
  submits : RecordedMatch.Submits serde sink m₀ ((submissions w.log).map Prod.fst)
    ((submissions w.log).map Prod.snd) w.session.recorder
  counts : (states initial w.log).length = w.session.revision + 1
  last : w.returned = false → (states initial w.log).getLast? = some w.session.recorder.state
  earlier : ∀ state ∈ (states initial w.log).dropLast, state.status = .playing
  alone : occupied w.session.clients = false → states initial w.log = [initial]
  requests : ∀ seat, ∀ requestId ∈ requestsOf seat w.log, requestId ≤ w.session.requests seat
  told : ∀ seat c, w.session.clients seat = some c → shownTo c (messages w.log) =
    if occupied w.session.clients then
      (states initial w.log).mapIdx (shownAt descriptions seat)
    else []
  strangers : ∀ c, (∀ seat, w.session.clients seat ≠ some c) → shownTo c (messages w.log) = []

variable {descriptions : CardDescriptions} {identities : CardIdentityMap} {serde : Serde}
  {sink : Sink σ} {m₀ : RecordedMatch σ} {initial : GameState} {w w' : World σ κ} {c : κ}

theorem told_start (h : m₀.state = initial) :
    Told descriptions serde sink m₀ initial (World.start m₀ : World σ κ) where
  submits := .nil
  counts := rfl
  last := by
    intro _
    rw [← h]
    rfl
  earlier := fun _ hmem => absurd hmem List.not_mem_nil
  alone := fun _ => rfl
  requests := fun _ _ hmem => absurd hmem List.not_mem_nil
  told := by
    intro seat c hclient
    cases hclient
  strangers := fun _ _ => rfl

variable {r : Reaction σ κ} {event : SessionEvent κ}

omit [DecidableEq κ] in
/-- A request that is counted is the highest one of its seat. -/
theorem counted_requests {log : List (Handled σ κ)} {s : Session σ κ} {seat seat' : Seat}
    {requestId id : ℕ}
    (hrequests : ∀ seat, ∀ id ∈ requestsOf seat log, id ≤ s.requests seat)
    (hnext : s.requests seat < requestId)
    (hrequest : ∀ seat' id, requestOf seat' event = some id → seat' = seat ∧ id = requestId)
    (h : id ∈ requestsOf seat' log ∨ requestOf seat' event = some id) :
    id ≤ Function.update s.requests seat requestId seat' := by
  obtain hmem | hsome := h
  · have hold := hrequests seat' id hmem
    by_cases hsame : seat' = seat
    · subst hsame
      rw [Function.update_self]
      omega
    · rwa [Function.update_of_ne hsame]
  · obtain ⟨rfl, rfl⟩ := hrequest seat' id hsome
    rw [Function.update_self]

/-- The world after the session has taken an event. -/
def World.served (w : World σ κ) (c : κ) (event : SessionEvent κ) (r : Reaction σ κ)
    (rest : List (κ × SessionEvent κ)) : World σ κ :=
  { session := r.session
    queue := rest
    tasks := admitTask w.tasks event r.admission
    returned := r.returned.isSome
    log := w.log ++ [⟨w.session, some (c, event), r⟩] }

variable {rest : List (κ × SessionEvent κ)}

/-- An event that is not recorded: nothing is shown, and the recorder is left alone. -/
theorem Told.quiet (h : Told descriptions serde sink m₀ initial w) (hrunning : w.returned = false)
    (hrecorder : r.session.recorder = w.session.recorder)
    (hrevision : r.session.revision = w.session.revision) (hsubmitted : r.submitted = none)
    (hhidden : ∀ m ∈ r.sent, shown m.2 = none)
    (hoccupied : occupied r.session.clients = occupied w.session.clients)
    (hclients : ∀ seat c, r.session.clients seat = some c → w.session.clients seat = some c ∨
      occupied w.session.clients = false ∧ ∀ seat, w.session.clients seat ≠ some c)
    (hkept : ∀ seat c, w.session.clients seat = some c → r.session.clients seat = some c)
    (hrequests : ∀ seat requestId, requestId ≤ w.session.requests seat ∨
      requestOf seat event = some requestId → requestId ≤ r.session.requests seat) :
    Told descriptions serde sink m₀ initial (w.served c event r rest) := by
  have hafter : (⟨w.session, some (c, event), r⟩ : Handled σ κ).after = none := by
    unfold Handled.after
    simp only [hsubmitted]
  have hstates : states initial (w.served c event r rest).log = states initial w.log :=
    states_concat_none _ hafter
  have hsubmissions : submissions (w.served c event r rest).log = submissions w.log :=
    submissions_concat_none _ hsubmitted
  have hshown : ∀ c', shownTo c' (messages (w.served c event r rest).log) =
      shownTo c' (messages w.log) := by
    intro c'
    unfold World.served
    rw [messages_concat, shownTo_append, shownTo_hidden hhidden, List.append_nil]
  refine ⟨?_, ?_, fun _ => ?_, ?_, ?_, ?_, ?_, ?_⟩
  · rw [hsubmissions]
    show RecordedMatch.Submits serde sink m₀ _ _ r.session.recorder
    rw [hrecorder]
    exact h.submits
  · rw [hstates]
    show _ = r.session.revision + 1
    rw [hrevision]
    exact h.counts
  · rw [hstates]
    show _ = some r.session.recorder.state
    rw [hrecorder]
    exact h.last hrunning
  · rw [hstates]
    exact h.earlier
  · intro halone
    rw [hstates]
    exact h.alone (hoccupied.symm.trans halone)
  · intro seat requestId hmem
    obtain hmem | hrequest := mem_requestsOf_concat.mp hmem
    · exact hrequests seat requestId (.inl (h.requests seat requestId hmem))
    · exact hrequests seat requestId (.inr hrequest)
  · intro seat c' hclient
    rw [hshown, hstates]
    show _ = if occupied r.session.clients = true then _ else _
    rw [hoccupied]
    obtain hclient | ⟨halone, hstranger⟩ := hclients seat c' hclient
    · exact h.told seat c' hclient
    · rw [if_neg (by rw [halone]; exact Bool.false_ne_true)]
      exact h.strangers c' hstranger
  · intro c' hstranger
    rw [hshown]
    exact h.strangers c' (fun seat hclient => hstranger seat (hkept seat c' hclient))

/-- The second seat is taken: both seats are shown the first state. -/
theorem Told.opens (h : Told descriptions serde sink m₀ initial w)
    (hrunning : w.returned = false) {seat : Seat} {client : κ}
    (hevent : event = .joined seat client) (halone : occupied w.session.clients = false)
    (hboth : occupied (w.session.seated seat client).clients = true)
    (hapart : ∀ c seat other, r.session.clients seat = some c → r.session.clients other = some c →
      seat = other)
    (hsession : r.session = w.session.seated seat client) {stops : List (κ × ServerEnvelope)}
    (hstops : Stops stops)
    (hsent : r.sent = (client, .waiting seat) ::
      (broadcast descriptions identities w.session.recorder.state
        (w.session.seated seat client).clients ⟨[], w.session.revision, none, none, none⟩ ++ stops))
    (hsubmitted : r.submitted = none) :
    Told descriptions serde sink m₀ initial (w.served c event r rest) := by
  have hafter : (⟨w.session, some (c, event), r⟩ : Handled σ κ).after = none := by
    unfold Handled.after
    simp only [hsubmitted]
  have hstates : states initial (w.served c event r rest).log = states initial w.log :=
    states_concat_none _ hafter
  have hsubmissions : submissions (w.served c event r rest).log = submissions w.log :=
    submissions_concat_none _ hsubmitted
  have honly := h.alone halone
  have hrevision : w.session.revision = 0 := by
    have hcounts := h.counts
    rw [honly] at hcounts
    simpa using hcounts.symm
  have hstate : w.session.recorder.state = initial := by
    have hlast := h.last hrunning
    rw [honly] at hlast
    exact (Option.some.inj hlast).symm
  -- before, nobody had been shown anything
  have hbefore : ∀ c', shownTo c' (messages w.log) = [] := by
    intro c'
    by_cases hclient : ∃ seat, w.session.clients seat = some c'
    · obtain ⟨seat', hclient⟩ := hclient
      rw [h.told seat' c' hclient, if_neg (by rw [halone]; exact Bool.false_ne_true)]
    · exact h.strangers c' (not_exists.mp hclient)
  have hshown : ∀ c', shownTo c' (messages (w.served c event r rest).log) =
      shownTo c' (broadcast descriptions identities w.session.recorder.state
        (w.session.seated seat client).clients ⟨[], w.session.revision, none, none, none⟩) := by
    intro c'
    unfold World.served
    rw [messages_concat, shownTo_append, hbefore, List.nil_append, hsent, ← List.singleton_append,
      shownTo_append, shownTo_append, shownTo_hidden (hidden_stops hstops), List.append_nil,
      shownTo_hidden (by simp [shown]), List.nil_append]
  refine ⟨?_, ?_, fun _ => ?_, ?_, ?_, ?_, ?_, ?_⟩
  · rw [hsubmissions]
    show RecordedMatch.Submits serde sink m₀ _ _ r.session.recorder
    rw [hsession]
    exact h.submits
  · rw [hstates]
    show _ = r.session.revision + 1
    rw [hsession]
    exact h.counts
  · rw [hstates]
    show _ = some r.session.recorder.state
    rw [hsession]
    exact h.last hrunning
  · rw [hstates]
    exact h.earlier
  · intro hnot
    change occupied r.session.clients = false at hnot
    rw [hsession, hboth] at hnot
    cases hnot
  · intro seat' requestId hmem
    show _ ≤ r.session.requests seat'
    rw [hsession]
    obtain hmem | hrequest := mem_requestsOf_concat.mp hmem
    · exact h.requests seat' requestId hmem
    · rw [hevent] at hrequest
      cases hrequest
  · intro seat' c' hclient
    change r.session.clients seat' = some c' at hclient
    rw [hshown, hstates, honly]
    show _ = if occupied r.session.clients = true then _ else _
    rw [hsession, if_pos hboth,
      shownTo_broadcast (by rwa [hsession] at hclient) (fun other hother => by
        rw [← hsession] at hother
        exact hapart c' other seat' hother hclient)]
    rw [hrevision, hstate]
    rfl
  · intro c' hstranger
    rw [hshown]
    refine shownTo_broadcast_stranger (fun seat' => ?_)
    rw [← hsession]
    exact hstranger seat'

/-- The recorder fails: nothing more is shown. -/
theorem Told.failed (h : Told descriptions serde sink m₀ initial w) {action : GameAction}
    {error : RecordingError} {recorder : RecordedMatch σ} {seat : Seat} {requestId : ℕ}
    (hnext : w.session.requests seat < requestId)
    (hrequest : ∀ seat' id, requestOf seat' event = some id → seat' = seat ∧ id = requestId)
    (hsubmit : w.session.recorder.Submit serde sink action (.error error) recorder)
    (hsession : r.session = { w.session.counted seat requestId with recorder })
    (hstops : Stops r.sent) (hsubmitted : r.submitted = some (action, .error error))
    (hreturned : r.returned.isSome = true) :
    Told descriptions serde sink m₀ initial (w.served c event r rest) := by
  have hafter : (⟨w.session, some (c, event), r⟩ : Handled σ κ).after = none := by
    unfold Handled.after
    simp only [hsubmitted]
  have hstates : states initial (w.served c event r rest).log = states initial w.log :=
    states_concat_none _ hafter
  have hsubmissions : submissions (w.served c event r rest).log =
      submissions w.log ++ [(action, .error error)] := submissions_concat_some _ hsubmitted
  have hclients : r.session.clients = w.session.clients := by
    rw [hsession]
    rfl
  have hshown : ∀ c', shownTo c' (messages (w.served c event r rest).log) =
      shownTo c' (messages w.log) := by
    intro c'
    unfold World.served
    rw [messages_concat, shownTo_append, shownTo_hidden (hidden_stops hstops), List.append_nil]
  refine ⟨?_, ?_, fun hnot => ?_, ?_, ?_, ?_, ?_, ?_⟩
  · rw [hsubmissions, List.map_append, List.map_append]
    show RecordedMatch.Submits serde sink m₀ _ _ r.session.recorder
    rw [hsession]
    exact .snoc h.submits hsubmit
  · rw [hstates]
    show _ = r.session.revision + 1
    rw [hsession]
    exact h.counts
  · change r.returned.isSome = false at hnot
    rw [hreturned] at hnot
    cases hnot
  · rw [hstates]
    exact h.earlier
  · intro halone
    rw [hstates]
    exact h.alone (hclients ▸ halone)
  · intro seat' id hmem
    show _ ≤ r.session.requests seat'
    rw [hsession]
    exact counted_requests h.requests hnext hrequest (mem_requestsOf_concat.mp hmem)
  · intro seat' c' hclient
    rw [hshown, hstates]
    show _ = if occupied r.session.clients = true then _ else _
    rw [hclients]
    exact h.told seat' c' (hclients ▸ hclient)
  · intro c' hstranger
    rw [hshown]
    exact h.strangers c' (fun seat' => hclients ▸ hstranger seat')

/-- A step is recorded: both seats are shown the state it leads to. -/
theorem Told.recorded (h : Told descriptions serde sink m₀ initial w) (hwired : Wired w)
    (hrunning : w.returned = false) {action : GameAction} {step : RecordedStep}
    {recorder : RecordedMatch σ} {seat : Seat} {requestId : ℕ}
    (hnext : w.session.requests seat < requestId)
    (hrequest : ∀ seat' id, requestOf seat' event = some id → seat' = seat ∧ id = requestId)
    (hboth : occupied w.session.clients = true)
    (hplaying : w.session.recorder.state.status = .playing)
    (hsubmit : w.session.recorder.Submit serde sink action (.ok step) recorder)
    (hsession : r.session = { w.session.counted seat requestId with
      recorder := recorder, revision := w.session.revision + 1 })
    {input : Broadcast} (hinput : input.revision = w.session.revision + 1)
    {stops : List (κ × ServerEnvelope)} (hstops : Stops stops)
    (hsent : r.sent =
      broadcast descriptions identities recorder.state w.session.clients input ++ stops)
    (hsubmitted : r.submitted = some (action, .ok step)) :
    Told descriptions serde sink m₀ initial (w.served c event r rest) := by
  have hafter : (⟨w.session, some (c, event), r⟩ : Handled σ κ).after = some recorder.state := by
    unfold Handled.after
    simp only [hsubmitted, hsession]
  have hstates : states initial (w.served c event r rest).log =
      states initial w.log ++ [recorder.state] := states_concat_some _ hafter
  have hsubmissions : submissions (w.served c event r rest).log =
      submissions w.log ++ [(action, .ok step)] := submissions_concat_some _ hsubmitted
  have hclients : r.session.clients = w.session.clients := by
    rw [hsession]
    rfl
  have hshown : ∀ c', shownTo c' (messages (w.served c event r rest).log) =
      shownTo c' (messages w.log) ++
        shownTo c' (broadcast descriptions identities recorder.state w.session.clients input) := by
    intro c'
    unfold World.served
    rw [messages_concat, shownTo_append, hsent, shownTo_append, shownTo_hidden (hidden_stops hstops),
      List.append_nil]
  refine ⟨?_, ?_, fun _ => ?_, ?_, ?_, ?_, ?_, ?_⟩
  · rw [hsubmissions, List.map_append, List.map_append]
    show RecordedMatch.Submits serde sink m₀ _ _ r.session.recorder
    rw [hsession]
    exact .snoc h.submits hsubmit
  · rw [hstates, List.length_append, h.counts]
    show _ = r.session.revision + 1
    rw [hsession]
    rfl
  · rw [hstates, List.getLast?_concat]
    show _ = some r.session.recorder.state
    rw [hsession]
  · intro state hmem
    rw [hstates, List.dropLast_concat] at hmem
    have hlast := h.last hrunning
    rw [← List.dropLast_append_getLast? _ hlast, List.mem_append, List.mem_singleton] at hmem
    obtain hmem | rfl := hmem
    · exact h.earlier state hmem
    · exact hplaying
  · intro halone
    change occupied r.session.clients = false at halone
    rw [hclients, hboth] at halone
    cases halone
  · intro seat' id hmem
    show _ ≤ r.session.requests seat'
    rw [hsession]
    exact counted_requests h.requests hnext hrequest (mem_requestsOf_concat.mp hmem)
  · intro seat' c' hclient
    change r.session.clients seat' = some c' at hclient
    rw [hclients] at hclient
    rw [hshown, hstates, h.told seat' c' hclient, if_pos hboth,
      shownTo_broadcast hclient (fun other hother => hwired.apart c' other seat' hother hclient)]
    show _ = if occupied r.session.clients = true then _ else _
    rw [hclients, if_pos hboth, List.mapIdx_append, h.counts, hinput]
    simp only [List.mapIdx_cons, List.mapIdx_nil, Nat.zero_add]
  · intro c' hstranger
    have hstranger' : ∀ seat', w.session.clients seat' ≠ some c' :=
      fun seat' => hclients ▸ hstranger seat'
    rw [hshown, h.strangers c' hstranger', shownTo_broadcast_stranger hstranger', List.append_nil]

theorem Told.serve (h : Told descriptions serde sink m₀ initial w) (hwired : Wired w)
    (hwired' : Wired (w.served c event r rest)) (hrunning : w.returned = false)
    (hqueue : w.queue = (c, event) :: rest) {answer : Except ActionError ActionOutcome}
    (hreacts : Reacts descriptions identities serde sink answer w.session event r)
    (hanswer : ∀ action result, r.submitted = some (action, result) →
      w.session.recorder.lifecycle = .active →
        ∃ fuel, apply fuel w.session.recorder.state action = some answer) :
    Told descriptions serde sink m₀ initial (w.served c event r rest) := by
  -- events other than requests leave the numbers of the requests alone
  have hsilent : r.session.requests = w.session.requests →
      (∀ seat, requestOf seat event = none) → ∀ seat requestId,
        requestId ≤ w.session.requests seat ∨ requestOf seat event = some requestId →
          requestId ≤ r.session.requests seat := by
    intro hsame hnone seat requestId hor
    rw [hsame]
    obtain hle | hsome := hor
    · exact hle
    · rw [hnone seat] at hsome
      cases hsome
  have hstays : r.session = w.session → ∀ seat c, r.session.clients seat = some c →
      w.session.clients seat = some c ∨
        occupied w.session.clients = false ∧ ∀ seat, w.session.clients seat ≠ some c := by
    intro hsame seat c hclient
    rw [hsame] at hclient
    exact .inl hclient
  cases hreacts with
  | unseated seat client hevent envelope stops hstops hshown hadmission hsession hsent hsubmitted =>
    refine h.quiet hrunning (by rw [hsession]) (by rw [hsession]) hsubmitted ?_ (by rw [hsession])
      (hstays hsession) (by rw [hsession]; exact fun _ _ hclient => hclient)
      (hsilent (by rw [hsession]) (by rw [hevent]; exact fun _ => rfl))
    rw [hsent]
    refine List.forall_mem_cons.mpr ⟨?_, hidden_stops hstops⟩
    obtain rfl | rfl := hshown <;> rfl
  | waits seat client hevent hfree halone hadmission hsession hsent hsubmitted =>
    have hbefore : occupied w.session.clients = false := by
      by_contra hocc
      rw [Bool.not_eq_false] at hocc
      rw [show occupied (w.session.seated seat client).clients = true from occupied_update hocc]
        at halone
      cases halone
    have hhead := hwired.queued c event (by rw [hqueue]; exact List.mem_cons_self)
    rw [hevent] at hhead
    obtain ⟨rfl, hjoining⟩ := hhead
    refine h.quiet hrunning (by rw [hsession]; rfl) (by rw [hsession]; rfl) hsubmitted ?_ ?_ ?_ ?_
      (hsilent (by rw [hsession]; rfl) (by rw [hevent]; exact fun _ => rfl))
    · rw [hsent]
      intro m hm
      obtain rfl := List.mem_singleton.mp hm
      rfl
    · rw [hsession, halone, hbefore]
    · intro seat' c' hclient
      rw [hsession] at hclient
      change Function.update w.session.clients seat (some client) seat' = some c' at hclient
      by_cases hsame : seat' = seat
      · subst hsame
        rw [Function.update_self] at hclient
        obtain rfl := Option.some.inj hclient
        exact .inr ⟨hbefore, hwired.outside client (.inr ⟨_, hjoining⟩)⟩
      · rw [Function.update_of_ne hsame] at hclient
        exact .inl hclient
    · intro seat' c' hclient
      rw [hsession]
      show Function.update w.session.clients seat (some client) seat' = some c'
      have hne : seat' ≠ seat := by
        rintro rfl
        rw [hfree] at hclient
        cases hclient
      rw [Function.update_of_ne hne]
      exact hclient
  | opens seat client hevent hfree halone hboth hadmission hsession stops hstops hsent hsubmitted =>
    exact h.opens hrunning hevent halone hboth hwired'.apart hsession hstops hsent hsubmitted
  | gone seat hevent hsession hstops hsubmitted =>
    exact h.quiet hrunning (by rw [hsession]) (by rw [hsession]) hsubmitted (hidden_stops hstops)
      (by rw [hsession]) (hstays hsession) (by rw [hsession]; exact fun _ _ hclient => hclient)
      (hsilent (by rw [hsession]) (by rw [hevent]; exact fun _ => rfl))
  | unsupported seat requestId hevent hsession stops hstops hsent hsubmitted =>
    refine h.quiet hrunning (by rw [hsession]) (by rw [hsession]) hsubmitted ?_ (by rw [hsession])
      (hstays hsession) (by rw [hsession]; exact fun _ _ hclient => hclient)
      (hsilent (by rw [hsession]) (by rw [hevent]; exact fun _ => rfl))
    rw [hsent]
    intro m hm
    obtain hm | hm := List.mem_append.mp hm
    · obtain ⟨_, -, rfl⟩ := List.mem_map.mp hm
      rfl
    · exact hidden_stops hstops m hm
  | stranger seat requestId basedOnRevision wire hevent hclient hsession hsent hsubmitted =>
    -- a request comes from the client on its seat
    have hhead := hwired.queued c event (by rw [hqueue]; exact List.mem_cons_self)
    rw [hevent] at hhead
    rw [show w.session.clients seat = some c from hhead] at hclient
    cases hclient
  | rejected seat requestId basedOnRevision wire hevent client hclient reason hsession hsent
      hsubmitted =>
    have hhidden : ∀ m ∈ r.sent, shown m.2 = none := by
      rw [hsent]
      intro m hm
      obtain rfl := List.mem_singleton.mp hm
      rfl
    obtain ⟨hold, hsession⟩ | ⟨hnext, hsession⟩ := hsession
    · refine h.quiet hrunning (by rw [hsession]) (by rw [hsession]) hsubmitted hhidden
        (by rw [hsession]) (hstays hsession) (by rw [hsession]; exact fun _ _ hclient => hclient) ?_
      intro seat' id hor
      rw [hsession]
      obtain hle | hsome := hor
      · exact hle
      · obtain ⟨rfl, rfl⟩ := requestOf_submit (hevent ▸ hsome)
        exact hold
    · refine h.quiet hrunning (by rw [hsession]; rfl) (by rw [hsession]; rfl) hsubmitted hhidden
        (by rw [hsession]; rfl) (fun _ _ hclient' => .inl (by rw [hsession] at hclient'; exact hclient'))
        (fun _ _ hclient' => by rw [hsession]; exact hclient') ?_
      intro seat' id hor
      rw [hsession]
      show id ≤ Function.update w.session.requests seat requestId seat'
      by_cases hsame : seat' = seat
      · subst hsame
        rw [Function.update_self]
        obtain hle | hsome := hor
        · omega
        · exact (requestOf_submit (hevent ▸ hsome)).2.le
      · rw [Function.update_of_ne hsame]
        obtain hle | hsome := hor
        · exact hle
        · exact absurd (requestOf_submit (hevent ▸ hsome)).1 hsame
  | failed seat requestId basedOnRevision wire hevent action hsubmits error recorder hsubmit hsession
      hstops hsubmitted hreturned =>
    exact h.failed hsubmits.request (fun _ _ hsome => requestOf_submit (hevent ▸ hsome))
      ⟨answer, hanswer action _ hsubmitted, hsubmit⟩ hsession hstops hsubmitted
      (by rw [hreturned]; rfl)
  | recorded seat requestId basedOnRevision wire hevent action hsubmits step recorder hsubmit hsession
      stops hstops hsent hsubmitted hreturned =>
    exact h.recorded hwired hrunning hsubmits.request
      (fun _ _ hsome => requestOf_submit (hevent ▸ hsome)) hsubmits.both hsubmits.playing
      ⟨answer, hanswer action _ hsubmitted, hsubmit⟩ hsession rfl hstops hsent hsubmitted

theorem Told.interrupt (h : Told descriptions serde sink m₀ initial w) :
    Told descriptions serde sink m₀ initial
      { w with returned := true, log := w.log ++ [⟨w.session, none, w.session.interrupted⟩] } := by
  have hstates : states initial (w.log ++ [⟨w.session, none, w.session.interrupted⟩]) =
      states initial w.log := states_concat_none _ rfl
  have hsubmissions : submissions (w.log ++ [⟨w.session, none, w.session.interrupted⟩]) =
      submissions w.log := submissions_concat_none _ rfl
  have hshown : ∀ c', shownTo c' (messages (w.log ++ [⟨w.session, none, w.session.interrupted⟩])) =
      shownTo c' (messages w.log) := by
    intro c'
    rw [messages_concat, shownTo_append]
    show _ ++ shownTo c' (stopAll w.session.clients "interrupted") = _
    rw [shownTo_hidden (hidden_stops (stops_stopAll _ _)), List.append_nil]
  have hrequests : ∀ seat, requestsOf seat (w.log ++ [⟨w.session, none, w.session.interrupted⟩]) =
      requestsOf seat w.log := by
    intro seat
    unfold requestsOf
    rw [List.filterMap_append]
    exact List.append_nil _
  refine ⟨?_, ?_, nofun, ?_, ?_, ?_, ?_, ?_⟩ <;> dsimp only
  · rw [hsubmissions]
    exact h.submits
  · rw [hstates]
    exact h.counts
  · rw [hstates]
    exact h.earlier
  · rw [hstates]
    exact h.alone
  · intro seat
    rw [hrequests]
    exact h.requests seat
  · intro seat c' hclient
    rw [hshown, hstates]
    exact h.told seat c' hclient
  · intro c' hstranger
    rw [hshown]
    exact h.strangers c' hstranger

/-- Every step keeps the session and its log in agreement. -/
theorem Told.step (h : Told descriptions serde sink m₀ initial w) (hwired : Wired w)
    (hstep : Step descriptions identities serde sink w w') :
    Told descriptions serde sink m₀ initial w' := by
  have hwired' := hwired.step hstep
  cases hstep with
  | join | refuse | read => exact ⟨h.submits, h.counts, h.last, h.earlier, h.alone, h.requests,
      h.told, h.strangers⟩
  | serve hrunning hqueue answer link hreaction hanswer =>
    exact h.serve hwired hwired' hrunning hqueue (hreaction ▸ Session.react_reacts _) hanswer
  | interrupt hrunning => exact h.interrupt

theorem Reachable.told (h : Reachable descriptions identities serde sink m₀ w)
    (hinitial : m₀.state = initial) : Told descriptions serde sink m₀ initial w := by
  induction h with
  | refl => exact told_start hinitial
  | tail hrun hstep ih => exact ih.step (Reachable.wired hrun) hstep

end

end Summoners.Cli.Server
