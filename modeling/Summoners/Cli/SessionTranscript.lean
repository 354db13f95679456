import Summoners.Cli.SessionHistory
import Summoners.Proof.Verdicts

/-! # The transcript of a session

A client is told that the match is over only when its transcript is complete: what has been written by
then is verified, and recounts what the players did.
-/

namespace Summoners.Cli.Server
set_option autoImplicit false

open Checked Protocol

/-! ## Being told the end -/

/-- The outcome that a message tells. -/
def ending : ServerEnvelope → Option OutcomeView
  | .finished outcome _ _ _ => some outcome
  | _ => none

section
variable {descriptions : CardDescriptions} {identities : CardIdentityMap} {κ : Type}

theorem ending_envelope (input : Broadcast) (state : GameState) (seat : Seat) :
    ending (input.envelope descriptions identities state seat) = outcomeOf state.status := by
  unfold Broadcast.envelope
  have hview : (playerView state (Seat.player seat) descriptions).outcome =
      outcomeOf state.status := rfl
  cases hstatus : outcomeOf state.status with
  | none => simp [hview, hstatus, ending]
  | some outcome => simp [hview, hstatus, ending]

/-- The outcomes told by messages. -/
def endings (sent : List (κ × ServerEnvelope)) : List OutcomeView :=
  sent.filterMap (fun m => ending m.2)

theorem endings_append (sent sent' : List (κ × ServerEnvelope)) :
    endings (sent ++ sent') = endings sent ++ endings sent' := List.filterMap_append

theorem endings_stops {stops : List (κ × ServerEnvelope)} (h : Stops stops) : endings stops = [] := by
  refine List.filterMap_eq_nil_iff.mpr (fun m hm => ?_)
  obtain ⟨reason, heq⟩ := h m hm
  rw [heq]
  rfl

theorem mem_endings_broadcast {clients : Seat → Option κ} {state : GameState} {input : Broadcast}
    {outcome : OutcomeView}
    (h : outcome ∈ endings (broadcast descriptions identities state clients input)) :
    outcomeOf state.status = some outcome := by
  obtain ⟨m, hm, hending⟩ := List.mem_filterMap.mp h
  obtain ⟨seat, -, hseat⟩ := List.mem_filterMap.mp hm
  obtain ⟨client, -, rfl⟩ := Option.map_eq_some_iff.mp hseat
  rwa [ending_envelope] at hending

end

/-! ## The invariant -/

section
variable {κ : Type} [DecidableEq κ] {descriptions : CardDescriptions} {identities : CardIdentityMap}
  {serde : Serde} {header : HeaderV1} {created : MatchCreatedV1} {initial : GameState}
  {recorder : RecordedMatch (List (List UInt8))} {w w' : World (List (List UInt8)) κ}

/-- A session that goes on has written the steps so far and told no end; one that has told an end has
written the whole transcript. -/
structure Transcribed (serde : Serde) (header : HeaderV1) (created : MatchCreatedV1)
    (initial : GameState) (w : World (List (List UInt8)) κ) : Prop where
  running : w.returned = false → endings (messages w.log) = [] ∧
    ∃ steps, WrittenSoFar serde header created initial (recordedActions w.log) steps
      w.session.recorder
  told : ∀ outcome ∈ endings (messages w.log), ∃ ended t, outcome = outcomeView ended ∧
    WrittenWhole serde header created initial (recordedActions w.log) ended t w.session.recorder

omit [DecidableEq κ] in
/-- A reaction that records nothing and tells no end. -/
theorem Transcribed.quiet (h : Transcribed serde header created initial w)
    (hrunning : w.returned = false) {session : Session (List (List UInt8)) κ} {returned : Bool}
    {queue : List (κ × SessionEvent κ)} {tasks : κ → Task} (entry : Handled (List (List UInt8)) κ)
    (hrecorder : returned = false → session.recorder = w.session.recorder)
    (hrecorded : entry.recorded = none) (hsent : endings entry.reaction.sent = []) :
    Transcribed serde header created initial
      ⟨session, queue, tasks, returned, w.log ++ [entry]⟩ := by
  obtain ⟨hnone, steps, hsteps⟩ := h.running hrunning
  have hall : endings (messages (w.log ++ [entry])) = [] := by
    rw [messages_concat, endings_append, hnone, hsent, List.append_nil]
  constructor
  · intro hstill
    refine ⟨hall, steps, ?_⟩
    dsimp only
    rw [recordedActions_concat_none entry hrecorded, hrecorder hstill]
    exact hsteps
  · intro outcome hmem
    dsimp only at hmem
    rw [hall] at hmem
    exact absurd hmem List.not_mem_nil

theorem Transcribed.serve (h : Transcribed serde header created initial w) {c : κ}
    {event : SessionEvent κ} {rest : List (κ × SessionEvent κ)} (hrunning : w.returned = false)
    {answer : Except ActionError ActionOutcome} {r : Reaction (List (List UInt8)) κ}
    (hreacts : Reacts descriptions identities serde .memory answer w.session event r)
    (hanswer : ∀ action result, r.submitted = some (action, result) →
      w.session.recorder.lifecycle = .active →
        ∃ fuel, apply fuel w.session.recorder.state action = some answer) :
    Transcribed serde header created initial
      ⟨r.session, rest, admitTask w.tasks event r.admission, r.returned.isSome,
        w.log ++ [⟨w.session, some (c, event), r⟩]⟩ := by
  obtain ⟨hnone, steps, hsteps⟩ := h.running hrunning
  have hsilent : ∀ {session : Session (List (List UInt8)) κ}, r.submitted = none →
      r.session = session → session.recorder = w.session.recorder → endings r.sent = [] →
      Transcribed serde header created initial
        ⟨r.session, rest, admitTask w.tasks event r.admission, r.returned.isSome,
          w.log ++ [⟨w.session, some (c, event), r⟩]⟩ := by
    intro session hsubmitted hsession hrecorder hsent
    refine h.quiet hrunning _ (fun _ => by rw [hsession, hrecorder]) ?_ hsent
    unfold Handled.recorded
    simp only [hsubmitted]
  cases hreacts with
  | unseated seat client hevent envelope stops hstops hshown hadmission hsession hsent hsubmitted =>
    refine hsilent hsubmitted hsession rfl ?_
    rw [hsent, ← List.singleton_append, endings_append, endings_stops hstops]
    obtain rfl | rfl := hshown <;> rfl
  | waits seat client hevent hfree halone hadmission hsession hsent hsubmitted =>
    refine hsilent hsubmitted hsession rfl ?_
    rw [hsent]
    rfl
  | opens seat client hevent hfree halone hboth hadmission hsession stops hstops hsent hsubmitted =>
    refine hsilent hsubmitted hsession rfl ?_
    rw [hsent, ← List.singleton_append, endings_append, endings_append, endings_stops hstops]
    refine List.eq_nil_iff_forall_not_mem.mpr (fun outcome hmem => ?_)
    obtain hmem | hmem := List.mem_append.mp hmem
    · exact absurd hmem List.not_mem_nil
    · rw [List.append_nil] at hmem
      have htold := mem_endings_broadcast hmem
      rw [hsteps.playing] at htold
      cases htold
  | gone seat hevent hsession hstops hsubmitted =>
    exact hsilent hsubmitted hsession rfl (endings_stops hstops)
  | unsupported seat requestId hevent hsession stops hstops hsent hsubmitted =>
    refine hsilent hsubmitted hsession rfl ?_
    rw [hsent, endings_append, endings_stops hstops, List.append_nil]
    cases w.session.clients seat <;> rfl
  | stranger seat requestId basedOnRevision wire hevent hclient hsession hsent hsubmitted =>
    refine hsilent hsubmitted hsession rfl ?_
    rw [hsent]
    rfl
  | rejected seat requestId basedOnRevision wire hevent client hclient reason hsession hsent
      hsubmitted =>
    have hends : endings r.sent = [] := by
      rw [hsent]
      rfl
    obtain ⟨-, hsession⟩ | ⟨-, hsession⟩ := hsession
    · exact hsilent hsubmitted hsession rfl hends
    · exact hsilent hsubmitted hsession rfl hends
  | failed seat requestId basedOnRevision wire hevent action hsubmits error failed hsubmit hsession
      hstops hsubmitted hreturned =>
    refine h.quiet hrunning _ (fun hstill => ?_) ?_ (endings_stops hstops)
    · rw [hreturned] at hstill
      cases hstill
    · unfold Handled.recorded
      simp only [hsubmitted]
  | recorded seat requestId basedOnRevision wire hevent action hsubmits step after hsubmit hsession
      stops hstops hsent hsubmitted hreturned =>
    have hstep : w.session.recorder.Submit serde .memory action (.ok step) after :=
      ⟨answer, fun hactive => hanswer action _ hsubmitted hactive, hsubmit⟩
    have hrecorded : recordedActions (w.log ++ [⟨w.session, some (c, event), r⟩]) =
        recordedActions w.log ++ [action] := by
      refine recordedActions_concat_some _ ?_
      unfold Handled.recorded
      simp only [hsubmitted]
    have hends : ∀ outcome ∈ endings (messages (w.log ++ [⟨w.session, some (c, event), r⟩])),
        outcomeOf after.state.status = some outcome := by
      intro outcome hmem
      rw [messages_concat, endings_append, hnone, List.nil_append, hsent, endings_append,
        endings_stops hstops, List.append_nil] at hmem
      exact mem_endings_broadcast hmem
    obtain ⟨next, hnext⟩ | ⟨ended, t, hwhole, -⟩ := hsteps.submit hstep
    · constructor
      · intro _
        dsimp only
        rw [hrecorded, hsession]
        refine ⟨List.eq_nil_iff_forall_not_mem.mpr (fun outcome hmem => ?_), _, hnext⟩
        have htold := hends outcome hmem
        rw [hnext.playing] at htold
        cases htold
      · intro outcome hmem
        have htold := hends outcome hmem
        rw [hnext.playing] at htold
        cases htold
    · constructor
      · intro hstill
        have hquiet := hreturned (Option.isSome_eq_false_iff.mp hstill |> Option.isNone_iff_eq_none.mp)
        rw [hwhole.ended] at hquiet
        cases hquiet
      · intro outcome hmem
        have htold := hends outcome hmem
        rw [hwhole.ended] at htold
        dsimp only
        rw [hrecorded, hsession]
        exact ⟨ended, t, (Option.some.inj htold).symm, hwhole⟩

theorem Transcribed.step (h : Transcribed serde header created initial w)
    (hstep : Step descriptions identities serde .memory w w') :
    Transcribed serde header created initial w' := by
  cases hstep with
  | join | refuse | read => exact ⟨h.running, h.told⟩
  | serve hrunning hqueue answer link hreaction hanswer =>
    have hreacts : Reacts descriptions identities serde .memory answer w.session _ _ :=
      hreaction ▸ Session.react_reacts _
    exact h.serve hrunning hreacts hanswer
  | interrupt hrunning =>
    exact h.quiet hrunning _ nofun rfl (endings_stops (stops_stopAll _ _))

end

/-! ## The transcript -/

end Summoners.Cli.Server
