import Mathlib.Data.List.Nodup
import Summoners.Checked.History
import Summoners.Cli.Session
import Summoners.Proof.FailsClosed

/-! # What a session keeps

The invariants of a session and its connections, over every order of their steps and every failure of
a delivery or of the recorder.
-/

namespace Summoners.Cli.Server
set_option autoImplicit false

open Checked Protocol

/-! ## What the recorder keeps -/

section
variable {σ : Type} {serde : Serde} {sink : Sink σ} {m m' : RecordedMatch σ}

theorem append_ok_state {record : RecordV1} {u : Unit}
    (h : RecordedMatch.append serde sink record m = (.ok u, m')) : m'.state = m.state := by
  unfold RecordedMatch.append at h
  cases hbytes : serde.encodeRecord record with
  | error e =>
    rw [hbytes] at h
    cases h
  | ok bytes =>
    rw [hbytes] at h
    obtain ⟨_, m₁, hwrite, hupdate⟩ := Recording.bind_ok_iff.mp h
    unfold RecordedMatch.writeRecord at hwrite
    split at hwrite
    · cases hwrite
      cases hupdate
      rfl
    · cases hwrite

theorem appendRecords_ok_state {records : List RecordV1} {u : Unit}
    (h : RecordedMatch.appendRecords serde sink records m = (.ok u, m')) : m'.state = m.state := by
  induction records generalizing m with
  | nil =>
    cases h
    rfl
  | cons record records ih =>
    obtain ⟨_, m₁, hfirst, hrest⟩ := Recording.bind_ok_iff.mp h
    rw [ih hrest, append_ok_state hfirst]

theorem flush_ok_state {u : Unit} (h : RecordedMatch.flush sink m = (.ok u, m')) :
    m'.state = m.state := by
  rw [RecordedMatch.flush_ok_frame h]

theorem computeDigest_ok_state {projection : StateProjectionV1} {digest : StateDigestV1}
    (h : RecordedMatch.computeDigest serde projection m = (.ok digest, m')) : m' = m := by
  unfold RecordedMatch.computeDigest at h
  cases hcompute : serde.compute projection with
  | error e =>
    rw [hcompute] at h
    cases h
  | ok found =>
    rw [hcompute] at h
    cases h
    rfl

/-- A step that was recorded is what the engine answered, and the recorder holds the state after it. -/
theorem submitWith_ok_state {action : GameAction} {answer : Except ActionError ActionOutcome}
    {step : RecordedStep}
    (h : RecordedMatch.submitWith serde sink action answer m = (.ok step, m')) :
    m.lifecycle = .active ∧
      ((∃ outcome, answer = .ok outcome ∧ step = .accepted outcome.events ∧
          m'.state = outcome.state ∧ ∀ b, outcome.state.status ≠ .broken b) ∨
        ∃ error, answer = .error error ∧ step = .rejected error ∧ m'.state = m.state) := by
  have hactive : m.lifecycle = .active := by
    obtain ⟨_, m₁, hensure, -⟩ := Recording.bind_ok_iff.mp h
    exact (RecordedMatch.ensureActive_ok_iff.mp hensure).1
  refine ⟨hactive, ?_⟩
  rw [RecordedMatch.submitWith_active hactive] at h
  obtain ⟨_, m₁, happend, hrest⟩ := Recording.bind_ok_iff.mp h
  obtain ⟨_, m₂, hupdate, hanswer⟩ := Recording.bind_ok_iff.mp hrest
  cases hupdate
  have hbefore := append_ok_state happend
  cases answer with
  | error error =>
    refine .inr ⟨error, rfl, RecordedMatch.recordRejectedStep_returns hanswer, ?_⟩
    simp only [RecordedMatch.recordAnswer, RecordedMatch.recordRejectedStep,
      Recording.bind_ok_iff] at hanswer
    obtain ⟨_, m₃, hthis, _, m₄, hdigest, _, m₅, hwritten, _, m₆, hflush, hpure⟩ := hanswer
    cases hthis
    cases hpure
    rw [flush_ok_state hflush, append_ok_state hwritten, computeDigest_ok_state hdigest]
    exact hbefore
  | ok outcome =>
    refine .inl ⟨outcome, rfl, (RecordedMatch.recordAcceptedStep_returns hanswer).1, ?_⟩
    simp only [RecordedMatch.recordAnswer, RecordedMatch.recordAcceptedStep, Recording.bind_ok_iff]
      at hanswer
    obtain ⟨_, m₃, hset, _, m₄, hdigest, _, m₅, hthis, _, m₆, hwritten, _, m₇, hflush, _, m₈, hcount,
      hcheck⟩ := hanswer
    cases hset
    cases hthis
    cases hcount
    have hstate : m₇.state = outcome.state := by
      rw [flush_ok_state hflush, appendRecords_ok_state hwritten, computeDigest_ok_state hdigest]
    cases hterminal : checkTerminalEvents outcome.state.status outcome.events with
    | error e =>
      rw [hterminal] at hcheck
      cases hcheck
    | ok ended =>
      rw [hterminal] at hcheck
      cases ended with
      | none =>
        cases hstatus : outcome.state.status with
        | broken b =>
          simp only [hstatus] at hcheck
          cases hcheck
        | playing =>
          simp only [hstatus] at hcheck
          cases hcheck
          exact ⟨hstate, fun b hbroken => by cases hbroken⟩
        | ended o =>
          simp only [hstatus] at hcheck
          cases hcheck
          exact ⟨hstate, fun b hbroken => by cases hbroken⟩
      | some ended =>
        simp only [RecordedMatch.completeEndedMatch, Recording.bind_ok_iff] at hcheck
        obtain ⟨_, m₉, ⟨_, m₁₀, hthis, _, m₁₁, hwritten, _, m₁₂, hflush, hlast⟩, hpure⟩ := hcheck
        cases hpure
        cases hlast
        cases hthis
        refine ⟨?_, fun b hbroken => ?_⟩
        · show m₁₂.state = outcome.state
          rw [flush_ok_state hflush, appendRecords_ok_state hwritten]
          exact hstate
        · -- a broken match is not over
          rw [hbroken] at hterminal
          cases hterminal

end

/-! ## What the session does about an event -/

section
variable {σ κ : Type} {descriptions : CardDescriptions} {identities : CardIdentityMap}
  {serde : Serde} {sink : Sink σ} {answer : Except ActionError ActionOutcome}
  {link : κ → ServerEnvelope → Bool} {s : Session σ κ}

/-- Messages that end a session. -/
def Stops (sent : List (κ × ServerEnvelope)) : Prop := ∀ m ∈ sent, ∃ reason, m.2 = .stopped reason

theorem stops_nil : Stops ([] : List (κ × ServerEnvelope)) := by
  intro m hm
  exact absurd hm List.not_mem_nil

theorem stops_stopAll (clients : Seat → Option κ) (reason : String) :
    Stops (stopAll clients reason) := by
  intro m hm
  obtain ⟨seat, -, hseat⟩ := List.mem_filterMap.mp hm
  obtain ⟨client, -, rfl⟩ := Option.map_eq_some_iff.mp hseat
  exact ⟨reason, rfl⟩

/-- The client takes the seat. -/
def Session.seated (s : Session σ κ) (seat : Seat) (client : κ) : Session σ κ :=
  { s with clients := Function.update s.clients seat (some client) }

/-- The request is counted. -/
def Session.counted (s : Session σ κ) (seat : Seat) (requestId : ℕ) : Session σ κ :=
  { s with requests := Function.update s.requests seat requestId }

/-- The recorder is asked to record an action of the seat. -/
structure Submits (s : Session σ κ) (seat : Seat) (requestId basedOnRevision : ℕ) (wire : ActionV1)
    (action : GameAction) : Prop where
  client : (s.clients seat).isSome = true
  request : s.requests seat < requestId
  both : occupied s.clients = true
  converts : wire.tryIntoCore = .ok action
  actor : action.actor = Seat.player seat
  playing : s.recorder.state.status = .playing
  revision : basedOnRevision = s.revision ∨ isResign action = true

/-- The answer to an event, case by case. -/
inductive Reacts (descriptions : CardDescriptions) (identities : CardIdentityMap) (serde : Serde)
    (sink : Sink σ) (answer : Except ActionError ActionOutcome) (s : Session σ κ)
    (event : SessionEvent κ) (r : Reaction σ κ) : Prop
  /-- The seat is taken, or the new client is lost at once. -/
  | unseated (seat : Seat) (client : κ) (hevent : event = .joined seat client)
      (envelope : ServerEnvelope) (stops : List (κ × ServerEnvelope)) (hstops : Stops stops)
      (hshown : envelope = .waiting seat ∨ envelope = .rejected none "seat is occupied")
      (hadmission : r.admission ≠ some .accepted)
      (hsession : r.session = s) (hsent : r.sent = (client, envelope) :: stops)
      (hsubmitted : r.submitted = none)
  | waits (seat : Seat) (client : κ) (hevent : event = .joined seat client)
      (hfree : s.clients seat = none) (halone : occupied (s.seated seat client).clients = false)
      (hadmission : r.admission = some .accepted) (hsession : r.session = s.seated seat client)
      (hsent : r.sent = [(client, .waiting seat)]) (hsubmitted : r.submitted = none)
  | opens (seat : Seat) (client : κ) (hevent : event = .joined seat client)
      (hfree : s.clients seat = none) (halone : occupied s.clients = false)
      (hboth : occupied (s.seated seat client).clients = true)
      (hadmission : r.admission = some .accepted) (hsession : r.session = s.seated seat client)
      (stops : List (κ × ServerEnvelope)) (hstops : Stops stops)
      (hsent : r.sent = (client, .waiting seat) ::
        (broadcast descriptions identities s.recorder.state (s.seated seat client).clients
          ⟨[], s.revision, none, none, none⟩ ++ stops))
      (hsubmitted : r.submitted = none)
  | gone (seat : Seat) (hevent : event = .gone seat) (hsession : r.session = s)
      (hstops : Stops r.sent) (hsubmitted : r.submitted = none)
  | unsupported (seat : Seat) (requestId : ℕ) (hevent : event = .unsupportedVersion seat requestId)
      (hsession : r.session = s) (stops : List (κ × ServerEnvelope)) (hstops : Stops stops)
      (hsent : r.sent = (s.clients seat).toList.map (fun client =>
        (client, rejection requestId "unsupported version")) ++ stops)
      (hsubmitted : r.submitted = none)
  | stranger (seat : Seat) (requestId basedOnRevision : ℕ) (wire : ActionV1)
      (hevent : event = .submit seat requestId basedOnRevision wire)
      (hclient : s.clients seat = none) (hsession : r.session = s) (hsent : r.sent = [])
      (hsubmitted : r.submitted = none)
  | rejected (seat : Seat) (requestId basedOnRevision : ℕ) (wire : ActionV1)
      (hevent : event = .submit seat requestId basedOnRevision wire) (client : κ)
      (hclient : s.clients seat = some client) (reason : String)
      (hsession : (requestId ≤ s.requests seat ∧ r.session = s) ∨
        (s.requests seat < requestId ∧ r.session = s.counted seat requestId))
      (hsent : r.sent = [(client, rejection requestId reason)]) (hsubmitted : r.submitted = none)
  | failed (seat : Seat) (requestId basedOnRevision : ℕ) (wire : ActionV1)
      (hevent : event = .submit seat requestId basedOnRevision wire) (action : GameAction)
      (hsubmits : Submits s seat requestId basedOnRevision wire action)
      (error : RecordingError) (recorder : RecordedMatch σ)
      (hsubmit : RecordedMatch.submitWith serde sink action answer s.recorder = (.error error, recorder))
      (hsession : r.session = { s.counted seat requestId with recorder })
      (hstops : Stops r.sent) (hsubmitted : r.submitted = some (action, .error error))
      (hreturned : r.returned = some (.error (.recording error)))
  | recorded (seat : Seat) (requestId basedOnRevision : ℕ) (wire : ActionV1)
      (hevent : event = .submit seat requestId basedOnRevision wire) (action : GameAction)
      (hsubmits : Submits s seat requestId basedOnRevision wire action)
      (step : RecordedStep) (recorder : RecordedMatch σ)
      (hsubmit : RecordedMatch.submitWith serde sink action answer s.recorder = (.ok step, recorder))
      (hsession : r.session =
        { s.counted seat requestId with recorder := recorder, revision := s.revision + 1 })
      (stops : List (κ × ServerEnvelope)) (hstops : Stops stops)
      (hsent : r.sent = broadcast descriptions identities recorder.state s.clients
        ⟨(Session.resultOf step).2, s.revision + 1, some requestId, some seat,
          some (Session.resultOf step).1⟩ ++ stops)
      (hsubmitted : r.submitted = some (action, .ok step))
      (hreturned : r.returned = none → outcomeOf recorder.state.status = none)

theorem Session.record_reacts {seat : Seat} {requestId basedOnRevision : ℕ} {wire : ActionV1}
    {action : GameAction} (h : Submits s seat requestId basedOnRevision wire action) :
    Reacts descriptions identities serde sink answer s
      (.submit seat requestId basedOnRevision wire)
      ((s.counted seat requestId).record descriptions identities serde sink answer link seat
        requestId action) := by
  unfold Session.record
  cases hsubmit : RecordedMatch.submitWith serde sink action answer s.recorder with
  | mk recorded recorder =>
    have hcounted : RecordedMatch.submitWith serde sink action answer
        (s.counted seat requestId).recorder = (recorded, recorder) := hsubmit
    rw [hcounted]
    cases recorded with
    | error error =>
      exact .failed seat requestId basedOnRevision wire rfl action h error recorder hsubmit rfl
        (stops_stopAll _ _) rfl rfl
    | ok step =>
      dsimp only
      generalize hall : (broadcast descriptions identities recorder.state
        (s.counted seat requestId).clients _).all _ = delivered
      cases delivered with
      | false =>
        exact .recorded seat requestId basedOnRevision wire rfl action h step recorder hsubmit rfl _
          (stops_stopAll (s.counted seat requestId).clients "connection closed") rfl rfl nofun
      | true =>
        refine .recorded seat requestId basedOnRevision wire rfl action h step recorder hsubmit rfl []
          stops_nil (List.append_nil _).symm rfl ?_
        cases hstatus : outcomeOf recorder.state.status with
        | none => exact fun _ => rfl
        | some outcome => nofun

theorem Session.onJoined_reacts [DecidableEq κ] (seat : Seat) (client : κ) :
    Reacts descriptions identities serde sink answer s (.joined seat client)
      (s.onJoined descriptions identities link seat client) := by
  unfold Session.onJoined
  split
  · exact .unseated seat client rfl _ [] stops_nil (.inr rfl) (by simp) rfl rfl rfl
  next htaken =>
    rw [Bool.or_eq_true, not_or, Bool.not_eq_true, Bool.not_eq_true, Option.isSome_eq_false_iff,
      Option.isNone_iff_eq_none] at htaken
    obtain ⟨hfree, halone⟩ := htaken
    split
    · cases hboth : occupied (s.seated seat client).clients with
      | false =>
        refine .waits seat client rfl hfree hboth rfl rfl ?_ rfl
        dsimp only
        rw [if_neg (show ¬occupied (Function.update s.clients seat (some client)) = true by
          rw [show occupied (Function.update s.clients seat (some client)) = false from hboth]
          exact Bool.false_ne_true)]
        rfl
      | true =>
        dsimp only
        rw [if_pos (show occupied (Function.update s.clients seat (some client)) = true from hboth)]
        generalize hall : (broadcast descriptions identities s.recorder.state
          (Function.update s.clients seat (some client)) _).all _ = delivered
        cases delivered with
        | false =>
          exact .opens seat client rfl hfree halone hboth rfl rfl _
            (stops_stopAll (s.seated seat client).clients "connection closed") rfl rfl
        | true =>
          refine .opens seat client rfl hfree halone hboth rfl rfl [] stops_nil ?_ rfl
          rw [List.append_nil]
          rfl
    · exact .unseated seat client rfl _ _ (stops_stopAll _ _) (.inl rfl) (by simp) rfl rfl rfl

theorem Session.onSubmit_reacts (seat : Seat) (requestId basedOnRevision : ℕ) (wire : ActionV1) :
    Reacts descriptions identities serde sink answer s
      (.submit seat requestId basedOnRevision wire)
      (s.onSubmit descriptions identities serde sink answer link seat requestId basedOnRevision
        wire) := by
  unfold Session.onSubmit
  cases hclient : s.clients seat with
  | none => exact .stranger seat requestId basedOnRevision wire rfl hclient rfl rfl rfl
  | some client =>
    have hrejected : ∀ reason, s.requests seat < requestId →
        Reacts descriptions identities serde sink answer s
          (.submit seat requestId basedOnRevision wire)
          ((s.counted seat requestId).deliver link client (rejection requestId reason)) :=
      fun reason hnext => .rejected seat requestId basedOnRevision wire rfl client hclient reason
        (.inr ⟨hnext, rfl⟩) rfl rfl
    dsimp only
    split
    next hrequest =>
      refine .rejected seat requestId basedOnRevision wire rfl client hclient _ (.inl ⟨?_, rfl⟩) rfl
        rfl
      simpa [requestIsNext] using hrequest
    next hrequest =>
      have hnext : s.requests seat < requestId := by simpa [requestIsNext] using hrequest
      split
      · exact hrejected _ hnext
      next hboth =>
        have hoccupied : occupied s.clients = true := by simpa using hboth
        cases hnormal : normalizeAction (Seat.player seat) wire with
        | error e =>
          cases e with
          | actor => exact hrejected _ hnext
          | conversion reason => exact hrejected _ hnext
        | ok action =>
          obtain ⟨hconverts, hactor⟩ := normalizeAction_ok.mp hnormal
          dsimp only
          split
          · exact hrejected _ hnext
          next hstale =>
            have haccepts : s.recorder.state.status = .playing ∧
                (basedOnRevision = s.revision ∨ isResign action = true) := by
              simpa only [acceptsRevision, Bool.not_eq_true', Bool.not_eq_false, Bool.and_eq_true,
                Bool.or_eq_true, beq_iff_eq, GameStatus.isPlaying_iff] using hstale
            exact Session.record_reacts
              ⟨by rw [hclient]; rfl, hnext, hoccupied, hconverts, hactor, haccepts.1, haccepts.2⟩

theorem Session.react_reacts [DecidableEq κ] (event : SessionEvent κ) :
    Reacts descriptions identities serde sink answer s event
      (s.react descriptions identities serde sink answer link event) := by
  cases event with
  | joined seat client => exact Session.onJoined_reacts seat client
  | submit seat requestId basedOnRevision wire =>
    exact Session.onSubmit_reacts seat requestId basedOnRevision wire
  | gone seat =>
    refine .gone seat rfl rfl ?_ rfl
    show Stops (s.onGone seat).sent
    unfold Session.onGone
    dsimp only
    split
    · exact stops_stopAll _ _
    · exact stops_nil
  | unsupportedVersion seat requestId =>
    show Reacts _ _ _ _ _ _ _ (s.onUnsupportedVersion link seat requestId)
    unfold Session.onUnsupportedVersion
    dsimp only
    generalize hall : List.all _ _ = delivered
    cases delivered with
    | true => exact .unsupported seat requestId rfl rfl _ (stops_stopAll _ _) rfl rfl
    | false =>
      exact .unsupported seat requestId rfl rfl [] stops_nil (List.append_nil _).symm rfl

/-- Who sits where changes only when a client is admitted to a free seat. -/
theorem Reacts.clients {event : SessionEvent κ} {r : Reaction σ κ}
    (h : Reacts descriptions identities serde sink answer s event r) :
    (r.session.clients = s.clients ∧
        ∀ seat client, event = .joined seat client → r.admission ≠ some .accepted) ∨
      ∃ seat client, event = .joined seat client ∧ s.clients seat = none ∧
        r.admission = some .accepted ∧
          r.session.clients = Function.update s.clients seat (some client) := by
  cases h with
  | unseated seat client hevent envelope stops hstops hshown hadmission hsession =>
    exact .inl ⟨by rw [hsession], fun _ _ _ => hadmission⟩
  | waits seat client hevent hfree halone hadmission hsession =>
    exact .inr ⟨seat, client, hevent, hfree, hadmission, by rw [hsession]; rfl⟩
  | opens seat client hevent hfree halone hboth hadmission hsession =>
    exact .inr ⟨seat, client, hevent, hfree, hadmission, by rw [hsession]; rfl⟩
  | gone seat hevent hsession =>
    exact .inl ⟨by rw [hsession], fun _ _ he => by rw [hevent] at he; cases he⟩
  | unsupported seat requestId hevent hsession =>
    exact .inl ⟨by rw [hsession], fun _ _ he => by rw [hevent] at he; cases he⟩
  | stranger seat requestId basedOnRevision wire hevent hclient hsession =>
    exact .inl ⟨by rw [hsession], fun _ _ he => by rw [hevent] at he; cases he⟩
  | rejected seat requestId basedOnRevision wire hevent client hclient reason hsession =>
    refine .inl ⟨?_, fun _ _ he => by rw [hevent] at he; cases he⟩
    obtain ⟨-, hsession⟩ | ⟨-, hsession⟩ := hsession <;> rw [hsession]
    rfl
  | failed seat requestId basedOnRevision wire hevent action hsubmits error recorder hsubmit
      hsession =>
    exact .inl ⟨by rw [hsession]; rfl, fun _ _ he => by rw [hevent] at he; cases he⟩
  | recorded seat requestId basedOnRevision wire hevent action hsubmits step recorder hsubmit
      hsession =>
    exact .inl ⟨by rw [hsession]; rfl, fun _ _ he => by rw [hevent] at he; cases he⟩

/-- The number of a request is counted for the seat that it comes from. -/
theorem Reacts.requests {event : SessionEvent κ} {r : Reaction σ κ}
    (h : Reacts descriptions identities serde sink answer s event r) :
    r.session.requests = s.requests ∨
      ∃ seat requestId basedOnRevision wire,
        event = .submit seat requestId basedOnRevision wire ∧
          r.session.requests = Function.update s.requests seat requestId := by
  cases h with
  | unseated seat client hevent envelope stops hstops hshown hadmission hsession =>
    exact .inl (by rw [hsession])
  | waits seat client hevent hfree halone hadmission hsession =>
    exact .inl (by rw [hsession]; rfl)
  | opens seat client hevent hfree halone hboth hadmission hsession =>
    exact .inl (by rw [hsession]; rfl)
  | gone seat hevent hsession => exact .inl (by rw [hsession])
  | unsupported seat requestId hevent hsession => exact .inl (by rw [hsession])
  | stranger seat requestId basedOnRevision wire hevent hclient hsession =>
    exact .inl (by rw [hsession])
  | rejected seat requestId basedOnRevision wire hevent client hclient reason hsession =>
    obtain ⟨-, hsession⟩ | ⟨-, hsession⟩ := hsession
    · exact .inl (by rw [hsession])
    · exact .inr ⟨seat, requestId, basedOnRevision, wire, hevent, by rw [hsession]; rfl⟩
  | failed seat requestId basedOnRevision wire hevent action hsubmits error recorder hsubmit
      hsession =>
    exact .inr ⟨seat, requestId, basedOnRevision, wire, hevent, by rw [hsession]; rfl⟩
  | recorded seat requestId basedOnRevision wire hevent action hsubmits step recorder hsubmit
      hsession =>
    exact .inr ⟨seat, requestId, basedOnRevision, wire, hevent, by rw [hsession]; rfl⟩

end

/-! ## The connections -/

section
variable {σ κ : Type}

/-- The connection of an event: the one that joins, or the one on the seat. -/
def Owns (s : Session σ κ) (tasks : κ → Task) (c : κ) : SessionEvent κ → Prop
  | .joined seat client => client = c ∧ tasks c = .joining seat
  | .submit seat _ _ _ | .unsupportedVersion seat _ | .gone seat => s.clients seat = some c

/-- The connections that are on their way to a seat, in the order of their events. -/
def joiners (queue : List (κ × SessionEvent κ)) : List κ :=
  queue.filterMap (fun (c, event) =>
    match event with
    | .joined _ _ => some c
    | _ => none)

/-- Which connection an event of the queue comes from, and which of them have a seat. -/
structure Wired (w : World σ κ) : Prop where
  unknown : ∀ c, w.tasks c = .fresh → ∀ event, (c, event) ∉ w.queue
  outside : ∀ c, w.tasks c = .fresh ∨ (∃ seat, w.tasks c = .joining seat) →
    ∀ seat, w.session.clients seat ≠ some c
  admitted : ∀ c seat, w.tasks c = .admitted seat → w.session.clients seat = some c
  apart : ∀ c seat other, w.session.clients seat = some c → w.session.clients other = some c →
    seat = other
  queued : ∀ c event, (c, event) ∈ w.queue → Owns w.session w.tasks c event
  once : (joiners w.queue).Nodup

theorem wired_start (recorder : RecordedMatch σ) :
    Wired (World.start recorder : World σ κ) where
  unknown := fun _ _ _ h => absurd h List.not_mem_nil
  outside := nofun
  admitted := nofun
  apart := nofun
  queued := fun _ _ h => absurd h List.not_mem_nil
  once := List.nodup_nil

theorem mem_joiners {queue : List (κ × SessionEvent κ)} {c : κ} :
    c ∈ joiners queue ↔ ∃ seat client, (c, .joined seat client) ∈ queue := by
  unfold joiners
  rw [List.mem_filterMap]
  constructor
  · rintro ⟨⟨c', event⟩, hmem, hsome⟩
    cases event with
    | joined seat client =>
      cases hsome
      exact ⟨seat, client, hmem⟩
    | _ => cases hsome
  · rintro ⟨seat, client, hmem⟩
    exact ⟨_, hmem, rfl⟩

theorem joiners_append (queue queue' : List (κ × SessionEvent κ)) :
    joiners (queue ++ queue') = joiners queue ++ joiners queue' := List.filterMap_append

/-- What is heard of a connection comes from the seat it has. -/
theorem heard_spec {seat : Seat} {frame : Option ClientEnvelope} {event : SessionEvent κ}
    {task : Task} (h : heard seat frame = (event, task)) :
    (∀ seat' client, event ≠ .joined seat' client) ∧ (task = .admitted seat ∨ task = .ended) ∧
      ∀ (s : Session σ κ) (tasks : κ → Task) (c : κ), s.clients seat = some c →
        Owns s tasks c event := by
  unfold heard at h
  split at h
  · split at h
    · cases h
      exact ⟨nofun, .inl rfl, fun _ _ _ hclient => hclient⟩
    · cases h
      exact ⟨nofun, .inr rfl, fun _ _ _ hclient => hclient⟩
  · cases h
    exact ⟨nofun, .inr rfl, fun _ _ _ hclient => hclient⟩
  · cases h
    exact ⟨nofun, .inr rfl, fun _ _ _ hclient => hclient⟩

variable [DecidableEq κ] {w : World σ κ} {c : κ}

/-- A task that does not wait for its admission goes on, and sends events of its own. -/
theorem Wired.move (h : Wired w) (task : Task) (events : List (SessionEvent κ))
    (hwaits : ∀ seat, w.tasks c ≠ .joining seat) (hnew : task ≠ .fresh)
    (hjoining : ∀ seat, task = .joining seat → w.tasks c = .fresh)
    (hadmitted : ∀ seat, task = .admitted seat → w.session.clients seat = some c)
    (howns : ∀ event ∈ events, Owns w.session (Function.update w.tasks c task) c event)
    (honce : (joiners (events.map (c, ·))).Nodup)
    (hfirst : c ∈ joiners (events.map (c, ·)) → w.tasks c = .fresh) :
    Wired { w with
      queue := w.queue ++ events.map (c, ·)
      tasks := Function.update w.tasks c task } where
  unknown := by
    intro c' hc' event hmem
    dsimp only at hc' hmem
    by_cases hne : c' = c
    · subst hne
      rw [Function.update_self] at hc'
      exact hnew hc'
    · rw [Function.update_of_ne hne] at hc'
      rcases List.mem_append.mp hmem with hmem | hmem
      · exact h.unknown c' hc' event hmem
      · obtain ⟨_, -, heq⟩ := List.mem_map.mp hmem
        exact hne (congrArg Prod.fst heq).symm
  outside := by
    intro c' hc'
    dsimp only at hc'
    by_cases hne : c' = c
    · subst hne
      rw [Function.update_self] at hc'
      obtain hc' | ⟨seat, hc'⟩ := hc'
      · exact absurd hc' hnew
      · exact h.outside c' (.inl (hjoining seat hc'))
    · rw [Function.update_of_ne hne] at hc'
      exact h.outside c' hc'
  admitted := by
    intro c' seat hc'
    dsimp only at hc'
    by_cases hne : c' = c
    · subst hne
      rw [Function.update_self] at hc'
      exact hadmitted seat hc'
    · rw [Function.update_of_ne hne] at hc'
      exact h.admitted c' seat hc'
  apart := h.apart
  queued := by
    intro c' event hmem
    rcases List.mem_append.mp hmem with hmem | hmem
    · have howned := h.queued c' event hmem
      cases event with
      | joined seat client =>
        refine ⟨howned.1, ?_⟩
        have hne : c' ≠ c := by
          rintro rfl
          exact hwaits seat howned.2
        show Function.update w.tasks c task c' = _
        rw [Function.update_of_ne hne]
        exact howned.2
      | _ => exact howned
    · obtain ⟨event', hevent, heq⟩ := List.mem_map.mp hmem
      cases heq
      exact howns event hevent
  once := by
    rw [joiners_append]
    refine List.nodup_append.mpr ⟨h.once, honce, ?_⟩
    intro a ha b hb
    rintro rfl
    obtain ⟨seat, client, hold⟩ := mem_joiners.mp ha
    obtain ⟨seat', client', hmem⟩ := mem_joiners.mp hb
    obtain ⟨_, -, heq⟩ := List.mem_map.mp hmem
    obtain rfl : c = a := congrArg Prod.fst heq
    exact h.unknown c (hfirst hb) _ hold

theorem Wired.join (h : Wired w) (hfresh : w.tasks c = .fresh) (seat : Seat) :
    Wired { w with
      queue := w.queue ++ [(c, .joined seat c)]
      tasks := Function.update w.tasks c (.joining seat) } := by
  refine h.move (.joining seat) [.joined seat c] ?_ nofun (fun _ _ => hfresh) nofun ?_
    (List.nodup_singleton c) (fun _ => hfresh)
  · rw [hfresh]
    exact nofun
  · intro event hevent
    obtain rfl := List.mem_singleton.mp hevent
    exact ⟨rfl, Function.update_self ..⟩

theorem Wired.refuse (h : Wired w) (hfresh : w.tasks c = .fresh) :
    Wired { w with tasks := Function.update w.tasks c .ended } := by
  have hmoved := h.move (c := c) .ended [] (by rw [hfresh]; exact nofun) nofun
    nofun nofun nofun List.nodup_nil nofun
  rwa [List.map_nil, List.append_nil] at hmoved

theorem Wired.read (h : Wired w) {seat : Seat} (hadmitted : w.tasks c = .admitted seat)
    {frame : Option ClientEnvelope} {event : SessionEvent κ} {task : Task}
    (hheard : heard seat frame = (event, task)) :
    Wired { w with
      queue := w.queue ++ [(c, event)]
      tasks := Function.update w.tasks c task } := by
  have hclient := h.admitted c seat hadmitted
  obtain ⟨hjoined, htask, howned⟩ := heard_spec (σ := σ) hheard
  have hnone : joiners [(c, event)] = [] := by
    refine List.eq_nil_iff_forall_not_mem.mpr (fun a ha => ?_)
    obtain ⟨seat', client, hmem⟩ := mem_joiners.mp ha
    exact hjoined seat' client (congrArg Prod.snd (List.mem_singleton.mp hmem)).symm
  refine h.move task [event] ?_ ?_ ?_ ?_ ?_ ?_ ?_
  · rw [hadmitted]
    exact nofun
  · obtain rfl | rfl := htask <;> nofun
  · obtain rfl | rfl := htask <;> nofun
  · obtain rfl | rfl := htask
    · rintro seat' ⟨⟩
      exact hclient
    · nofun
  · intro event' hevent
    obtain rfl := List.mem_singleton.mp hevent
    exact howned _ _ _ hclient
  · rw [List.map_singleton, hnone]
    exact List.nodup_nil
  · rw [List.map_singleton, hnone]
    nofun

/-- The session takes an event: a client that is admitted takes a free seat. -/
theorem Wired.serve (h : Wired w) {event : SessionEvent κ} {rest : List (κ × SessionEvent κ)}
    (hqueue : w.queue = (c, event) :: rest) {r : Reaction σ κ} {log : List (Handled σ κ)}
    {returned : Bool}
    (hclients : (r.session.clients = w.session.clients ∧
        ∀ seat client, event = .joined seat client → r.admission ≠ some .accepted) ∨
      ∃ seat client, event = .joined seat client ∧ w.session.clients seat = none ∧
        r.admission = some .accepted ∧
          r.session.clients = Function.update w.session.clients seat (some client)) :
    Wired ⟨r.session, rest, admitTask w.tasks event r.admission, returned, log⟩ := by
  have hhead := h.queued c event (by rw [hqueue]; exact List.mem_cons_self)
  have hrest : ∀ c' event', (c', event') ∈ rest → (c', event') ∈ w.queue := by
    intro c' event' hmem
    rw [hqueue]
    exact List.mem_cons_of_mem _ hmem
  have hnodup := h.once
  rw [hqueue, ← List.singleton_append, joiners_append] at hnodup
  obtain ⟨-, honce, hdistinct⟩ := List.nodup_append.mp hnodup
  cases event with
  | joined seat client =>
    obtain ⟨rfl, hjoining⟩ := hhead
    have hgone : ∀ seat' client', (client, .joined seat' client') ∉ rest := by
      intro seat' client' hmem
      exact hdistinct client List.mem_cons_self client
        (mem_joiners.mpr ⟨seat', client', hmem⟩) rfl
    have houtside := h.outside client (.inr ⟨seat, hjoining⟩)
    -- nothing but its wish to join was ever heard of the connection
    have hsilent : ∀ event', (client, event') ∉ rest := by
      intro event' hmem
      have howned := h.queued client event' (hrest _ _ hmem)
      cases event' with
      | joined seat' client' => exact hgone seat' client' hmem
      | submit seat' _ _ _ => exact houtside seat' howned
      | unsupportedVersion seat' _ => exact houtside seat' howned
      | gone seat' => exact houtside seat' howned
    have hother : ∀ c', c' ≠ client →
        admitTask w.tasks (.joined seat client) r.admission c' = w.tasks c' :=
      fun c' hne => Function.update_of_ne hne _ _
    have hself : admitTask w.tasks (.joined seat client) r.admission client =
        if r.admission = some .accepted then .admitted seat else .ended :=
      Function.update_self ..
    have hseat : ∀ c' seat', c' ≠ client → (r.session.clients seat' = some c' ↔
        w.session.clients seat' = some c') := by
      intro c' seat' hne
      obtain ⟨heq, -⟩ | ⟨_, _, hevent, hfree, -, heq⟩ := hclients
      · rw [heq]
      · cases hevent
        rw [heq]
        by_cases hsame : seat' = seat
        · subst hsame
          rw [Function.update_self, hfree]
          constructor
          · intro hclient
            exact absurd (Option.some.inj hclient).symm hne
          · nofun
        · rw [Function.update_of_ne hsame]
    have hclient : ∀ seat', r.session.clients seat' = some client →
        seat' = seat ∧ r.admission = some .accepted := by
      intro seat' hclient
      obtain ⟨heq, -⟩ | ⟨_, _, hevent, -, hadmission, heq⟩ := hclients
      · rw [heq] at hclient
        exact absurd hclient (houtside seat')
      · cases hevent
        refine ⟨?_, hadmission⟩
        by_contra hsame
        rw [heq, Function.update_of_ne hsame] at hclient
        exact houtside seat' hclient
    refine ⟨?_, ?_, ?_, ?_, ?_, honce⟩
    · intro c' hc' event' hmem
      by_cases hne : c' = client
      · subst hne
        exact hsilent event' hmem
      · exact h.unknown c' ((hother c' hne).symm.trans hc') event' (hrest _ _ hmem)
    · intro c' hc' seat'
      dsimp only at hc'
      by_cases hne : c' = client
      · subst hne
        rw [hself] at hc'
        split at hc' <;> obtain hc' | ⟨_, hc'⟩ := hc' <;> cases hc'
      · rw [hother c' hne] at hc'
        exact fun hclient => h.outside c' hc' seat' ((hseat c' seat' hne).mp hclient)
    · intro c' seat' hc'
      dsimp only at hc'
      by_cases hne : c' = client
      · subst hne
        rw [hself] at hc'
        split at hc'
        next hadmission =>
          cases hc'
          obtain ⟨-, hrefused⟩ | ⟨_, _, hevent, -, -, heq⟩ := hclients
          · exact absurd hadmission (hrefused _ _ rfl)
          · cases hevent
            rw [heq]
            exact Function.update_self ..
        · cases hc'
      · rw [hother c' hne] at hc'
        exact (hseat c' seat' hne).mpr (h.admitted c' seat' hc')
    · intro c' seat' other hc' hc''
      by_cases hne : c' = client
      · subst hne
        rw [(hclient _ hc').1, (hclient _ hc'').1]
      · exact h.apart c' seat' other ((hseat c' seat' hne).mp hc') ((hseat c' other hne).mp hc'')
    · intro c' event' hmem
      have hne : c' ≠ client := by
        rintro rfl
        exact hsilent event' hmem
      have howned := h.queued c' event' (hrest _ _ hmem)
      cases event' with
      | joined seat' client' => exact ⟨howned.1, (hother c' hne).trans howned.2⟩
      | submit seat' _ _ _ => exact (hseat c' seat' hne).mpr howned
      | unsupportedVersion seat' _ => exact (hseat c' seat' hne).mpr howned
      | gone seat' => exact (hseat c' seat' hne).mpr howned
  | _ =>
    have hsame : r.session.clients = w.session.clients := by
      obtain ⟨heq, -⟩ | ⟨_, _, hevent, -⟩ := hclients
      · exact heq
      · cases hevent
    refine ⟨fun c' hc' event' hmem => h.unknown c' hc' event' (hrest _ _ hmem), ?_, ?_, ?_, ?_,
      honce⟩
    · dsimp only
      rw [hsame]
      exact h.outside
    · dsimp only
      rw [hsame]
      exact h.admitted
    · dsimp only
      rw [hsame]
      exact h.apart
    · intro c' event' hmem
      have howned := h.queued c' event' (hrest _ _ hmem)
      cases event' with
      | joined seat' client' => exact howned
      | _ =>
        show r.session.clients _ = _
        rw [hsame]
        exact howned

variable {descriptions : CardDescriptions} {identities : CardIdentityMap} {serde : Serde}
  {sink : Sink σ} {w' : World σ κ} {recorder : RecordedMatch σ}

theorem Wired.step (h : Wired w) (hstep : Step descriptions identities serde sink w w') :
    Wired w' := by
  cases hstep with
  | join hfresh frame hframe => exact h.join hfresh _
  | refuse hfresh => exact h.refuse hfresh
  | read hadmitted frame hheard => exact h.read hadmitted hheard
  | serve hrunning hqueue answer link hreaction hanswer =>
    refine h.serve hqueue ?_
    rw [← hreaction]
    exact (Session.react_reacts _).clients
  | interrupt hrunning => exact ⟨h.unknown, h.outside, h.admitted, h.apart, h.queued, h.once⟩

theorem Reachable.wired (h : Reachable descriptions identities serde sink recorder w) : Wired w := by
  induction h with
  | refl => exact wired_start recorder
  | tail _ hstep ih => exact ih.step hstep

end

/-! ## What the messages say -/

/-- The view of a message, with the revision it gives; the last view comes without one. -/
def shown : ServerEnvelope → Option (Option ℕ × Protocol.PlayerView)
  | .update revision view _ _ _ => some (some revision, view)
  | .finished _ view _ _ => some (none, view)
  | .waiting _ | .stopped _ | .rejected _ _ => none

/-- The request that a message answers. -/
def replyTo : ServerEnvelope → Option ℕ
  | .update _ _ _ reply _ | .finished _ _ _ reply => reply
  | .rejected requestId _ => requestId
  | .waiting _ | .stopped _ => none

/-- What a player is shown of a state. -/
def shownAt (descriptions : CardDescriptions) (seat : Seat) (revision : ℕ) (state : GameState) :
    Option ℕ × Protocol.PlayerView :=
  (if (outcomeOf state.status).isSome then none else some revision,
    playerView state (Seat.player seat) descriptions)

section
variable {descriptions : CardDescriptions} {identities : CardIdentityMap}

theorem shown_envelope (input : Broadcast) (state : GameState) (seat : Seat) :
    shown (input.envelope descriptions identities state seat) =
      some (shownAt descriptions seat input.revision state) := by
  unfold Broadcast.envelope shownAt
  have hview : (playerView state (Seat.player seat) descriptions).outcome =
      outcomeOf state.status := rfl
  cases hstatus : outcomeOf state.status with
  | none => simp [hview, hstatus, shown]
  | some outcome => simp [hview, hstatus, shown]

theorem replyTo_envelope (input : Broadcast) (state : GameState) (seat : Seat) :
    replyTo (input.envelope descriptions identities state seat) =
      if input.requester = some seat then input.reply else none := by
  unfold Broadcast.envelope
  have hview : (playerView state (Seat.player seat) descriptions).outcome =
      outcomeOf state.status := rfl
  cases hstatus : outcomeOf state.status with
  | none => simp [hview, hstatus, replyTo]
  | some outcome => simp [hview, hstatus, replyTo]

variable {κ : Type}

/-- The answers among the messages, with the connections they go to. -/
def replies (sent : List (κ × ServerEnvelope)) : List (κ × ℕ) :=
  sent.filterMap (fun m => (replyTo m.2).map (m.1, ·))

theorem replies_append (sent sent' : List (κ × ServerEnvelope)) :
    replies (sent ++ sent') = replies sent ++ replies sent' := List.filterMap_append

theorem replies_stops {stops : List (κ × ServerEnvelope)} (h : Stops stops) : replies stops = [] := by
  refine List.filterMap_eq_nil_iff.mpr (fun m hm => ?_)
  obtain ⟨reason, heq⟩ := h m hm
  rw [heq]
  rfl

theorem hidden_stops {stops : List (κ × ServerEnvelope)} (h : Stops stops) :
    ∀ m ∈ stops, shown m.2 = none := by
  intro m hm
  obtain ⟨reason, heq⟩ := h m hm
  rw [heq]
  rfl

theorem replies_broadcast_none {clients : Seat → Option κ} {state : GameState} {input : Broadcast}
    (h : input.reply = none) :
    replies (broadcast descriptions identities state clients input) = [] := by
  refine List.filterMap_eq_nil_iff.mpr (fun m hm => ?_)
  obtain ⟨seat, -, hseat⟩ := List.mem_filterMap.mp hm
  obtain ⟨client, -, rfl⟩ := Option.map_eq_some_iff.mp hseat
  rw [replyTo_envelope, h, ite_self]
  rfl

/-- The answer in a broadcast goes to the one who asked. -/
theorem replies_broadcast {clients : Seat → Option κ} {c : κ} {seat : Seat} {state : GameState}
    {input : Broadcast} {requestId : ℕ} (hclient : clients seat = some c)
    (hreply : input.reply = some requestId) (hrequester : input.requester = some seat) :
    replies (broadcast descriptions identities state clients input) = [(c, requestId)] := by
  unfold broadcast replies seats
  cases seat with
  | one =>
    cases hclients : clients .two <;>
      simp [hclient, hclients, replyTo_envelope, hreply, hrequester]
  | two =>
    cases hclients : clients .one <;>
      simp [hclient, hclients, replyTo_envelope, hreply, hrequester]

variable [DecidableEq κ]

/-- What a connection is shown by the messages. -/
def shownTo (c : κ) (sent : List (κ × ServerEnvelope)) : List (Option ℕ × Protocol.PlayerView) :=
  sent.filterMap (fun m => if m.1 = c then shown m.2 else none)

theorem shownTo_append (c : κ) (sent sent' : List (κ × ServerEnvelope)) :
    shownTo c (sent ++ sent') = shownTo c sent ++ shownTo c sent' := List.filterMap_append

/-- Messages without a view show nothing. -/
theorem shownTo_hidden {c : κ} {sent : List (κ × ServerEnvelope)} (h : ∀ m ∈ sent, shown m.2 = none) :
    shownTo c sent = [] := by
  refine List.filterMap_eq_nil_iff.mpr (fun m hm => ?_)
  rw [h m hm, ite_self]

variable {clients : Seat → Option κ} {c : κ} {seat : Seat} {state : GameState} {input : Broadcast}

/-- A broadcast shows the state once to each client. -/
theorem shownTo_broadcast (hclient : clients seat = some c)
    (honly : ∀ other, clients other = some c → other = seat) :
    shownTo c (broadcast descriptions identities state clients input) =
      [shownAt descriptions seat input.revision state] := by
  have hother : ∀ other, other ≠ seat → ∀ client, clients other = some client → client ≠ c := by
    rintro other hne client hother rfl
    exact hne (honly other hother)
  unfold broadcast shownTo seats
  cases seat with
  | one =>
    have htwo := hother .two nofun
    cases hclients : clients .two with
    | none => simp [hclient, hclients, shown_envelope]
    | some client => simp [hclient, hclients, shown_envelope, htwo client hclients]
  | two =>
    have hone := hother .one nofun
    cases hclients : clients .one with
    | none => simp [hclient, hclients, shown_envelope]
    | some client => simp [hclient, hclients, shown_envelope, hone client hclients]

theorem shownTo_broadcast_stranger (h : ∀ seat, clients seat ≠ some c) :
    shownTo c (broadcast descriptions identities state clients input) = [] := by
  refine List.filterMap_eq_nil_iff.mpr (fun m hm => if_neg ?_)
  obtain ⟨seat, -, hseat⟩ := List.mem_filterMap.mp hm
  obtain ⟨client, hclient, rfl⟩ := Option.map_eq_some_iff.mp hseat
  rintro rfl
  exact h seat hclient

end

end Summoners.Cli.Server
