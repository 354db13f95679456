import Mathlib.Algebra.Ring.Nat
import Mathlib.Data.List.Induction
import Summoners.Checked.Collect
import Summoners.MatchLog.Lifecycle

/-! # The lifecycle grammar

What a complete transcript is, said of a transcript as a whole, and that `fold_records` accepts the
records of such transcripts and no others. `Advance` says once what reading one record can do;
`Reads` is the invariant of the loop, the records read in each phase in closed form. One lemma
extends it by a record and one takes its last record away, so it holds of exactly the runs of the
loop.
-/

namespace Summoners
set_option autoImplicit false
open Checked

/-! ## The grammar -/

/-- The outcome that a game_ended event announces. -/
def EventV1.outcome : EventV1 → Option GameOutcomeV1
  | .gameEnded winner reason => some ⟨winner, reason⟩
  | _ => none

/-- The outcomes announced by a list of events. -/
def announced (events : List EventRecordV1) : List GameOutcomeV1 :=
  events.filterMap (fun e => e.event.outcome)

namespace TranscriptStepV1

/-- The records of a step in the order written. -/
def records (step : TranscriptStepV1) : List RecordV1 :=
  match step.result with
  | .accepted events completion =>
      .action step.action :: (events.map .event ++ [.stepCompleted completion])
  | .rejected rejection => [.action step.action, .stepRejected rejection]

/-- A rejected step has no event. -/
def events (step : TranscriptStepV1) : List EventRecordV1 :=
  match step.result with
  | .accepted events _ => events
  | .rejected _ => []

/-- The digest of the state a step completes. -/
def completedDigest (step : TranscriptStepV1) : Option StateDigestV1 :=
  match step.result with
  | .accepted _ completion => some completion.stateDigest
  | .rejected _ => none

end TranscriptStepV1

/-- The digest of the last state completed in `steps`, or of the initial state. -/
def lastDigest (initial : StateDigestV1) (steps : List TranscriptStepV1) : StateDigestV1 :=
  (steps.filterMap TranscriptStepV1.completedDigest).getLast?.getD initial

/-- The events of one step are indexed from 0. -/
def EventsInOrder (step : ℕ) (events : List EventRecordV1) : Prop :=
  ∀ (i : ℕ) (e : EventRecordV1), events[i]? = some e → e.step = step ∧ e.index = i

/-- The records of one step agree, `before` being the digest of the state the step starts in. -/
structure StepWellFormed (number : ℕ) (before : StateDigestV1) (step : TranscriptStepV1) : Prop where
  action : step.action.step = number
  result : match step.result with
    | .accepted events completion => EventsInOrder number events ∧ completion.step = number ∧
        completion.eventCount = events.length
    | .rejected rejection => rejection.step = number ∧ rejection.stateDigest = before

/-- Steps are numbered from 1, each from the digest left by those before it. -/
def StepsWellFormed (initial : StateDigestV1) (steps : List TranscriptStepV1) : Prop :=
  ∀ (i : ℕ) (step : TranscriptStepV1), steps[i]? = some step →
    StepWellFormed (i + 1) (lastDigest initial (steps.take i)) step

/-- The events of all steps. -/
def eventTotal (steps : List TranscriptStepV1) : ℕ :=
  (steps.map (fun step => step.events.length)).sum

namespace TranscriptV1

/-- The records of a transcript in the order written. -/
def records (t : TranscriptV1) : List RecordV1 :=
  .header t.header :: .matchCreated t.matchCreated ::
    (t.steps.flatMap TranscriptStepV1.records ++
      [.finalState t.finalState, .matchCompleted t.matchCompleted])

/-- A complete match that ends with `outcome`. -/
structure WellFormed (compute : StateProjectionV1 → Except CanonicalStateError StateDigestV1)
    (outcome : GameOutcomeV1) (t : TranscriptV1) : Prop where
  sequence : t.records.map recordSequence = List.range t.records.length
  initial_playing : t.matchCreated.initialState.status = .playing
  initial_digest : compute t.matchCreated.initialState = .ok t.matchCreated.stateDigest
  steps : StepsWellFormed t.matchCreated.stateDigest t.steps
  /-- The last step announces the outcome, once, and no step before it announces one. -/
  terminal : ∃ before last, t.steps = before ++ [last] ∧ announced last.events = [outcome] ∧
    ∀ step ∈ before, announced step.events = []
  final_ended : t.finalState.finalState.status = .ended outcome
  final_digest : compute t.finalState.finalState = .ok t.finalState.stateDigest
  final_last : t.finalState.stateDigest = lastDigest t.matchCreated.stateDigest t.steps
  step_count : t.matchCompleted.stepCount = t.steps.length
  event_count : t.matchCompleted.eventCount = eventTotal t.steps
  digest : t.matchCompleted.stateDigest = t.finalState.stateDigest
  winner : t.matchCompleted.winner = outcome.winner
  reason : t.matchCompleted.reason = outcome.reason

end TranscriptV1

/-! ## One record -/

section
variable (compute : StateProjectionV1 → Except CanonicalStateError StateDigestV1)

/-- What reading one record can do. -/
inductive Advance : ParsePhase → RecordV1 → TranscriptBuilder → ParsePhase → TranscriptBuilder →
    Prop
  | header (header : HeaderV1) (b : TranscriptBuilder) :
      Advance .header (.header header) b .matchCreated { b with header := some header }
  | matchCreated {created : MatchCreatedV1} (b : TranscriptBuilder)
      (hplaying : created.initialState.status = .playing)
      (hdigest : compute created.initialState = .ok created.stateDigest) :
      Advance .matchCreated (.matchCreated created) b .ready
        { b with digest := some created.stateDigest, matchCreated := some created }
  | action {action : ActionRecordV1} {b : TranscriptBuilder} (hstep : action.step = b.nextStep) :
      Advance .ready (.action action) b (.pending ⟨action, [], none⟩) b
  | event {p : PendingStep} {event : EventRecordV1} (b : TranscriptBuilder)
      (hstep : event.step = p.action.step) (hindex : event.index = p.events.length)
      (honce : event.event.outcome = none ∨ p.gameEnded = none) :
      Advance (.pending p) (.event event) b
        (.pending ⟨p.action, p.events ++ [event], event.event.outcome.or p.gameEnded⟩) b
  | completed {p : PendingStep} {completion : StepCompletedV1} (b : TranscriptBuilder)
      (hstep : completion.step = p.action.step) (hcount : completion.eventCount = p.events.length) :
      Advance (.pending p) (.stepCompleted completion) b
        (p.gameEnded.elim .ready .terminal)
        { b with
          eventCount := b.eventCount + p.events.length
          digest := some completion.stateDigest
          steps := b.steps ++ [⟨p.action, .accepted p.events completion⟩]
          nextStep := b.nextStep + 1 }
  | rejected {p : PendingStep} {rejection : StepRejectedV1} {b : TranscriptBuilder}
      (hstep : rejection.step = p.action.step) (hevents : p.events = [])
      (hdigest : b.digest = some rejection.stateDigest) :
      Advance (.pending p) (.stepRejected rejection) b .ready
        { b with
          steps := b.steps ++ [⟨p.action, .rejected rejection⟩]
          nextStep := b.nextStep + 1 }
  | finalState {outcome : GameOutcomeV1} {final : FinalStateV1} {b : TranscriptBuilder}
      (hended : final.finalState.status = .ended outcome)
      (hdigest : compute final.finalState = .ok final.stateDigest)
      (hlast : b.digest = some final.stateDigest) :
      Advance (.terminal outcome) (.finalState final) b (.final outcome)
        { b with finalState := some final }
  | matchCompleted {outcome : GameOutcomeV1} {completed : MatchCompletedV1} {b : TranscriptBuilder}
      (hsteps : completed.stepCount = b.steps.length) (hevents : completed.eventCount = b.eventCount)
      (hdigest : b.digest = some completed.stateDigest) (hwinner : completed.winner = outcome.winner)
      (hreason : completed.reason = outcome.reason) :
      Advance (.final outcome) (.matchCompleted completed) b .complete
        { b with matchCompleted := some completed }

end

section
variable {compute : StateProjectionV1 → Except CanonicalStateError StateDigestV1}
  {decoded : DecodedRecord} {b b' : TranscriptBuilder} {phase phase' : ParsePhase}

theorem validateStep_ok_iff {expected found : ℕ} {u : Unit} :
    validateStep decoded expected found = .ok u ↔ found = expected := by
  unfold validateStep
  split_ifs with h <;> simp [h]

theorem computeAt_ok_iff {path : String} {state : StateProjectionV1} {digest : StateDigestV1} :
    computeAt compute decoded path state = .ok digest ↔ compute state = .ok digest := by
  unfold computeAt
  cases compute state with
  | error e => simp [Except.mapError]
  | ok d => simp [Except.mapError]

theorem validateInitialState_ok_iff {created : MatchCreatedV1} {u : Unit} :
    validateInitialState compute decoded created = .ok u ↔
      created.initialState.status = .playing ∧
        compute created.initialState = .ok created.stateDigest := by
  unfold validateInitialState
  cases hstatus : created.initialState.status with
  | playing =>
      simp only [bind_ok_iff, computeAt_ok_iff, refuse_ok_iff, not_not, and_true, true_and]
      constructor
      · rintro ⟨d, hd, rfl⟩
        exact hd
      · intro h
        exact ⟨_, h, rfl⟩
  | ended outcome => simp
  | broken breakage => simp

theorem validateFinalState_ok_iff {final : FinalStateV1} {terminal : GameOutcomeV1}
    {authoritative : Option StateDigestV1} {u : Unit} :
    validateFinalState compute decoded final terminal authoritative = .ok u ↔
      final.finalState.status = .ended terminal ∧
        compute final.finalState = .ok final.stateDigest ∧
        authoritative = some final.stateDigest := by
  unfold validateFinalState
  cases hstatus : final.finalState.status with
  | ended outcome =>
      simp only [refuse_ok_iff, bind_ok_iff, computeAt_ok_iff, not_or, not_not, and_true,
        GameStatusV1.ended.injEq]
      constructor
      · rintro ⟨rfl, d, hd, hlast, rfl⟩
        exact ⟨rfl, hd, hlast⟩
      · rintro ⟨rfl, hd, hlast⟩
        exact ⟨rfl, _, hd, hlast, rfl⟩
  | playing => simp
  | broken breakage => simp

theorem validateCompletion_ok_iff {completed : MatchCompletedV1} {terminal : GameOutcomeV1}
    {u : Unit} : validateCompletion decoded completed terminal b = .ok u ↔
      completed.stepCount = b.steps.length ∧ completed.eventCount = b.eventCount ∧
        b.digest = some completed.stateDigest ∧ completed.winner = terminal.winner ∧
        completed.reason = terminal.reason := by
  unfold validateCompletion
  simp only [refuse_ok_iff, not_not, and_true]

theorem advanceEvent_ok_iff {p p' : PendingStep} {event : EventRecordV1} :
    advanceEvent decoded p event = .ok p' ↔
      event.step = p.action.step ∧ event.index = p.events.length ∧
        (event.event.outcome = none ∨ p.gameEnded = none) ∧
        p' = ⟨p.action, p.events ++ [event], event.event.outcome.or p.gameEnded⟩ := by
  unfold advanceEvent
  simp only [bind_ok_iff, validateStep_ok_iff, refuse_ok_iff, not_not, exists_and_left,
    exists_const]
  refine and_congr_right fun hstep => and_congr_right fun hindex => ?_
  cases hevent : event.event
  case gameEnded winner reason =>
    cases hended : p.gameEnded with
    | some outcome => simp [EventV1.outcome]
    | none => simp [EventV1.outcome, eq_comm]
  all_goals simp [EventV1.outcome, eq_comm]

/-- Reading one record, as a relation. -/
theorem advance_ok_iff : advance compute phase decoded b = .ok (phase', b') ↔
    Advance compute phase decoded.record b phase' b' := by
  constructor
  · intro h
    -- eight pairs of a phase and a record are not refused outright
    cases phase <;> cases hrecord : decoded.record <;>
      simp only [advance, hrecord, reduceCtorEq] at h
    case header.header header =>
      cases h
      exact .header header b
    case matchCreated.matchCreated created =>
      simp only [bind_ok_iff, validateInitialState_ok_iff, pure_ok_iff] at h
      obtain ⟨-, ⟨hplaying, hdigest⟩, heq⟩ := h
      cases heq
      exact .matchCreated b hplaying hdigest
    case ready.action action =>
      simp only [bind_ok_iff, validateStep_ok_iff, pure_ok_iff] at h
      obtain ⟨-, hstep, heq⟩ := h
      cases heq
      exact .action hstep
    case pending.event p event =>
      simp only [bind_ok_iff, advanceEvent_ok_iff, pure_ok_iff] at h
      obtain ⟨p', ⟨hstep, hindex, honce, rfl⟩, heq⟩ := h
      cases heq
      exact .event b hstep hindex honce
    case pending.stepCompleted p completion =>
      simp only [advanceCompleted, bind_ok_iff, validateStep_ok_iff, refuse_ok_iff, not_not] at h
      obtain ⟨-, hstep, hcount, heq⟩ := h
      cases heq
      exact .completed b hstep hcount
    case pending.stepRejected p rejection =>
      simp only [advanceRejected, bind_ok_iff, validateStep_ok_iff, refuse_ok_iff, not_not] at h
      obtain ⟨-, hstep, hevents, hdigest, heq⟩ := h
      cases heq
      exact .rejected hstep hevents hdigest
    case terminal.finalState outcome final =>
      simp only [bind_ok_iff, validateFinalState_ok_iff, pure_ok_iff] at h
      obtain ⟨-, ⟨hended, hdigest, hlast⟩, heq⟩ := h
      cases heq
      exact .finalState hended hdigest hlast
    case final.matchCompleted outcome completed =>
      simp only [bind_ok_iff, validateCompletion_ok_iff, pure_ok_iff] at h
      obtain ⟨-, ⟨hsteps, hevents, hdigest, hwinner, hreason⟩, heq⟩ := h
      cases heq
      exact .matchCompleted hsteps hevents hdigest hwinner hreason
  · obtain ⟨line, record⟩ := decoded
    intro h
    cases h with
    | header header b => rfl
    | matchCreated b hplaying hdigest =>
        simp only [advance, bind_ok_iff, validateInitialState_ok_iff, pure_ok_iff]
        exact ⟨(), ⟨hplaying, hdigest⟩, trivial⟩
    | action hstep =>
        simp only [advance, bind_ok_iff, validateStep_ok_iff, pure_ok_iff]
        exact ⟨(), hstep, trivial⟩
    | event b hstep hindex honce =>
        simp only [advance, bind_ok_iff, advanceEvent_ok_iff, pure_ok_iff]
        exact ⟨_, ⟨hstep, hindex, honce, rfl⟩, rfl⟩
    | completed b hstep hcount =>
        simp only [advance, advanceCompleted, bind_ok_iff, validateStep_ok_iff, refuse_ok_iff,
          not_not]
        exact ⟨(), hstep, hcount, trivial⟩
    | rejected hstep hevents hdigest =>
        simp only [advance, advanceRejected, bind_ok_iff, validateStep_ok_iff, refuse_ok_iff,
          not_not]
        exact ⟨(), hstep, hevents, hdigest, trivial⟩
    | finalState hended hdigest hlast =>
        simp only [advance, bind_ok_iff, validateFinalState_ok_iff, pure_ok_iff]
        exact ⟨(), ⟨hended, hdigest, hlast⟩, trivial⟩
    | matchCompleted hsteps hevents hdigest hwinner hreason =>
        simp only [advance, bind_ok_iff, validateCompletion_ok_iff, pure_ok_iff]
        exact ⟨(), ⟨hsteps, hevents, hdigest, hwinner, hreason⟩, trivial⟩

end

/-! ## Adding the last event or step -/

theorem forall_getElem?_snoc {α : Type} {P : ℕ → α → Prop} {l : List α} {a : α} :
    (∀ i x, (l ++ [a])[i]? = some x → P i x) ↔ (∀ i x, l[i]? = some x → P i x) ∧ P l.length a := by
  constructor
  · intro h
    refine ⟨fun i x hx => h i x ?_, h l.length a (by simp)⟩
    obtain ⟨hi, -⟩ := List.getElem?_eq_some_iff.mp hx
    rw [List.getElem?_append_left hi]
    exact hx
  · rintro ⟨hl, ha⟩ i x hx
    by_cases hi : i < l.length
    · rw [List.getElem?_append_left hi] at hx
      exact hl i x hx
    · obtain ⟨hlt, -⟩ := List.getElem?_eq_some_iff.mp hx
      simp only [List.length_append, List.length_singleton] at hlt
      obtain rfl : i = l.length := by omega
      rw [List.getElem?_concat_length] at hx
      cases hx
      exact ha

section
variable {number : ℕ} {events : List EventRecordV1} {event : EventRecordV1}
  {initial : StateDigestV1} {steps : List TranscriptStepV1} {step : TranscriptStepV1}

theorem eventsInOrder_nil : EventsInOrder number [] := by simp [EventsInOrder]

theorem eventsInOrder_snoc : EventsInOrder number (events ++ [event]) ↔
    EventsInOrder number events ∧ event.step = number ∧ event.index = events.length :=
  forall_getElem?_snoc

theorem announced_snoc :
    announced (events ++ [event]) = announced events ++ event.event.outcome.toList := by
  unfold announced
  rw [List.filterMap_append]
  cases h : event.event.outcome <;> simp [h]

theorem stepsWellFormed_nil : StepsWellFormed initial [] := by simp [StepsWellFormed]

theorem stepsWellFormed_snoc : StepsWellFormed initial (steps ++ [step]) ↔
    StepsWellFormed initial steps ∧
      StepWellFormed (steps.length + 1) (lastDigest initial steps) step := by
  unfold StepsWellFormed
  rw [forall_getElem?_snoc, List.take_left]
  refine and_congr_left fun _ => forall₃_congr fun i x hx => ?_
  obtain ⟨hi, -⟩ := List.getElem?_eq_some_iff.mp hx
  rw [List.take_append_of_le_length (Nat.le_of_lt hi)]

theorem lastDigest_snoc : lastDigest initial (steps ++ [step]) =
    step.completedDigest.getD (lastDigest initial steps) := by
  unfold lastDigest
  rw [List.filterMap_append]
  cases h : step.completedDigest <;> simp [h]

theorem eventTotal_snoc : eventTotal (steps ++ [step]) = eventTotal steps + step.events.length := by
  simp [eventTotal]

end

/-! ## The records read so far -/

/-- The builder once `steps` are complete. -/
def readBuilder (header : HeaderV1) (created : MatchCreatedV1) (steps : List TranscriptStepV1) :
    TranscriptBuilder where
  header := some header
  matchCreated := some created
  steps := steps
  finalState := none
  matchCompleted := none
  nextStep := steps.length + 1
  eventCount := eventTotal steps
  digest := some (lastDigest created.stateDigest steps)

/-- The records up to the end of `steps`. -/
def readRecords (header : HeaderV1) (created : MatchCreatedV1) (steps : List TranscriptStepV1) :
    List RecordV1 :=
  .header header :: .matchCreated created :: steps.flatMap TranscriptStepV1.records

section
variable (compute : StateProjectionV1 → Except CanonicalStateError StateDigestV1)

/-- What all phases after match_created know. -/
structure Opened (created : MatchCreatedV1) (steps : List TranscriptStepV1) : Prop where
  playing : created.initialState.status = .playing
  digest : compute created.initialState = .ok created.stateDigest
  steps : StepsWellFormed created.stateDigest steps

/-- `last` announces the outcome, and is the first step to do so. -/
def TerminalStep (outcome : GameOutcomeV1) (steps : List TranscriptStepV1) : Prop :=
  ∃ before last, steps = before ++ [last] ∧ announced last.events = [outcome] ∧
    ∀ step ∈ before, announced step.events = []

/-- The records read, the phase reached and the builder. -/
inductive Reads : List RecordV1 → ParsePhase → TranscriptBuilder → Prop
  | header : Reads [] .header TranscriptBuilder.start
  | matchCreated (header : HeaderV1) :
      Reads [.header header] .matchCreated { TranscriptBuilder.start with header := some header }
  | ready {header : HeaderV1} {created : MatchCreatedV1} {steps : List TranscriptStepV1}
      (hopened : Opened compute created steps) (hquiet : ∀ step ∈ steps, announced step.events = []) :
      Reads (readRecords header created steps) .ready (readBuilder header created steps)
  | pending {header : HeaderV1} {created : MatchCreatedV1} {steps : List TranscriptStepV1}
      {action : ActionRecordV1} {events : List EventRecordV1} {ended : Option GameOutcomeV1}
      (hopened : Opened compute created steps) (hquiet : ∀ step ∈ steps, announced step.events = [])
      (haction : action.step = steps.length + 1) (hevents : EventsInOrder action.step events)
      (hended : announced events = ended.toList) :
      Reads (readRecords header created steps ++ .action action :: events.map .event)
        (.pending ⟨action, events, ended⟩) (readBuilder header created steps)
  | terminal {header : HeaderV1} {created : MatchCreatedV1} {steps : List TranscriptStepV1}
      {outcome : GameOutcomeV1} (hopened : Opened compute created steps)
      (hterminal : TerminalStep outcome steps) :
      Reads (readRecords header created steps) (.terminal outcome)
        (readBuilder header created steps)
  | final {header : HeaderV1} {created : MatchCreatedV1} {steps : List TranscriptStepV1}
      {outcome : GameOutcomeV1} {final : FinalStateV1} (hopened : Opened compute created steps)
      (hterminal : TerminalStep outcome steps) (hended : final.finalState.status = .ended outcome)
      (hdigest : compute final.finalState = .ok final.stateDigest)
      (hlast : final.stateDigest = lastDigest created.stateDigest steps) :
      Reads (readRecords header created steps ++ [.finalState final]) (.final outcome)
        { readBuilder header created steps with finalState := some final }
  | complete {outcome : GameOutcomeV1} {t : TranscriptV1}
      (hopened : Opened compute t.matchCreated t.steps) (hterminal : TerminalStep outcome t.steps)
      (hended : t.finalState.finalState.status = .ended outcome)
      (hdigest : compute t.finalState.finalState = .ok t.finalState.stateDigest)
      (hlast : t.finalState.stateDigest = lastDigest t.matchCreated.stateDigest t.steps)
      (hsteps : t.matchCompleted.stepCount = t.steps.length)
      (hevents : t.matchCompleted.eventCount = eventTotal t.steps)
      (hsame : t.matchCompleted.stateDigest = t.finalState.stateDigest)
      (hwinner : t.matchCompleted.winner = outcome.winner)
      (hreason : t.matchCompleted.reason = outcome.reason) :
      Reads t.records .complete
        { readBuilder t.header t.matchCreated t.steps with
          finalState := some t.finalState
          matchCompleted := some t.matchCompleted }

end

section
variable {compute : StateProjectionV1 → Except CanonicalStateError StateDigestV1}
  {b b' : TranscriptBuilder} {phase phase' : ParsePhase} {recs : List RecordV1} {r : RecordV1}
  {header : HeaderV1} {created : MatchCreatedV1} {steps : List TranscriptStepV1}

theorem readRecords_snoc (step : TranscriptStepV1) :
    readRecords header created (steps ++ [step]) =
      readRecords header created steps ++ step.records := by
  simp [readRecords]

/-- The builder after one more step. -/
theorem readBuilder_snoc (step : TranscriptStepV1) : readBuilder header created (steps ++ [step]) =
    { readBuilder header created steps with
      eventCount := eventTotal steps + step.events.length
      digest := some (step.completedDigest.getD (lastDigest created.stateDigest steps))
      steps := steps ++ [step]
      nextStep := steps.length + 1 + 1 } := by
  simp [readBuilder, eventTotal_snoc, lastDigest_snoc]

/-- A step that announces no outcome leaves the parser ready, another one makes it terminal. -/
theorem Reads.step (header : HeaderV1) {step : TranscriptStepV1} (ended : Option GameOutcomeV1)
    (hopened : Opened compute created steps) (hquiet : ∀ step ∈ steps, announced step.events = [])
    (hstep : StepWellFormed (steps.length + 1) (lastDigest created.stateDigest steps) step)
    (hended : announced step.events = ended.toList) :
    Reads compute (readRecords header created (steps ++ [step]))
      (ended.elim .ready .terminal) (readBuilder header created (steps ++ [step])) := by
  have hopened' : Opened compute created (steps ++ [step]) :=
    ⟨hopened.playing, hopened.digest, stepsWellFormed_snoc.mpr ⟨hopened.steps, hstep⟩⟩
  cases ended with
  | none =>
      refine .ready hopened' ?_
      intro s hs
      rcases List.mem_append.mp hs with hs | hs
      · exact hquiet s hs
      · rw [List.mem_singleton.mp hs]
        exact hended
  | some outcome => exact .terminal hopened' ⟨steps, step, rfl, hended, hquiet⟩

/-- Reading one more record. -/
theorem Reads.advance (h : Reads compute recs phase b) (ha : Advance compute phase r b phase' b') :
    Reads compute (recs ++ [r]) phase' b' := by
  cases ha with
  | header header b =>
      cases h
      exact .matchCreated header
  | matchCreated b hplaying hdigest =>
      cases h with
      | matchCreated header => exact .ready ⟨hplaying, hdigest, stepsWellFormed_nil⟩ (by simp)
  | action hstep =>
      cases h with
      | ready hopened hquiet =>
          exact .pending hopened hquiet hstep eventsInOrder_nil rfl
  | event b hstep hindex honce =>
      cases h with
      | pending hopened hquiet haction hevents hended =>
          rw [List.append_assoc, List.cons_append, ← List.map_singleton, ← List.map_append]
          refine .pending hopened hquiet haction
            (eventsInOrder_snoc.mpr ⟨hevents, hstep, hindex⟩) ?_
          rw [announced_snoc, hended]
          rcases honce with hnone | hnone
          · simp only [hnone, Option.toList_none, List.append_nil, Option.none_or]
          · simp only at hnone
            simp [hnone]
  | completed b hstep hcount =>
      cases h with
      | @pending header created steps action events ended hopened hquiet haction hevents hended =>
          have hwell : StepWellFormed (steps.length + 1) (lastDigest created.stateDigest steps)
              ⟨action, .accepted events _⟩ :=
            ⟨haction, haction ▸ hevents, haction ▸ hstep, hcount⟩
          have hread := Reads.step header ended hopened hquiet hwell hended
          rw [readRecords_snoc, readBuilder_snoc] at hread
          rw [List.append_assoc]
          exact hread
  | rejected hstep hevents hdigest =>
      cases h with
      | @pending header created steps action events ended hopened hquiet haction _ hended =>
          simp only at hevents
          subst hevents
          have hbefore := Option.some.inj hdigest
          have hwell : StepWellFormed (steps.length + 1) (lastDigest created.stateDigest steps)
              ⟨action, .rejected _⟩ := ⟨haction, haction ▸ hstep, hbefore.symm⟩
          have hread := Reads.step header none hopened hquiet hwell rfl
          rw [readRecords_snoc, readBuilder_snoc] at hread
          rw [List.append_assoc]
          exact hread
  | finalState hended hdigest hlast =>
      cases h with
      | terminal hopened hterminal =>
          exact .final hopened hterminal hended hdigest (Option.some.inj hlast).symm
  | @matchCompleted outcome completed b hsteps hevents hdigest hwinner hreason =>
      cases h with
      | @final header created steps outcome final hopened hterminal hended hcomputed hlast =>
          have hread := Reads.complete (t := ⟨header, created, steps, final, completed⟩) hopened
            hterminal hended hcomputed hlast hsteps hevents
            ((Option.some.inj hdigest).symm.trans hlast.symm) hwinner hreason
          simpa [TranscriptV1.records, readRecords] using hread

/-- The last record of a step, taken away. -/
theorem Reads.beforeStep (header : HeaderV1) {step : TranscriptStepV1}
    (ended : Option GameOutcomeV1) (hopened : Opened compute created (steps ++ [step]))
    (hquiet : ∀ step ∈ steps, announced step.events = [])
    (hended : announced step.events = ended.toList) :
    ∃ recs r phase b, readRecords header created (steps ++ [step]) = recs ++ [r] ∧
      Reads compute recs phase b ∧ Advance compute phase r b (ended.elim .ready .terminal)
        (readBuilder header created (steps ++ [step])) := by
  obtain ⟨hsteps, haction, hresult⟩ := stepsWellFormed_snoc.mp hopened.steps
  have hopened' : Opened compute created steps := ⟨hopened.playing, hopened.digest, hsteps⟩
  obtain ⟨action, result⟩ := step
  simp only at haction
  rw [readRecords_snoc, readBuilder_snoc]
  cases result with
  | accepted events completion =>
      obtain ⟨hevents, hstep, hcount⟩ := hresult
      rw [← haction] at hevents hstep
      refine ⟨_, .stepCompleted completion, _, _, ?_,
        .pending hopened' hquiet haction hevents hended, .completed _ hstep hcount⟩
      simp [TranscriptStepV1.records]
  | rejected rejection =>
      obtain ⟨hstep, hbefore⟩ := hresult
      rw [← haction] at hstep
      have hnone : ended = none := by
        cases ended with
        | none => rfl
        | some outcome => cases hended
      subst hnone
      refine ⟨_, .stepRejected rejection, _, _, ?_,
        .pending hopened' hquiet haction eventsInOrder_nil hended, .rejected hstep rfl ?_⟩
      · simp [TranscriptStepV1.records]
      · show some _ = some _
        rw [hbefore]

/-- The last record read, taken away. -/
theorem Reads.last (h : Reads compute recs phase' b') :
    recs = [] ∧ phase' = .header ∧ b' = TranscriptBuilder.start ∨
      ∃ before r phase b, recs = before ++ [r] ∧ Reads compute before phase b ∧
        Advance compute phase r b phase' b' := by
  cases h with
  | header => exact .inl ⟨rfl, rfl, rfl⟩
  | matchCreated header => exact .inr ⟨[], _, _, _, rfl, .header, .header header _⟩
  | @ready header created steps hopened hquiet =>
      right
      obtain rfl | ⟨steps, step, rfl⟩ := steps.eq_nil_or_concat'
      · exact ⟨[.header header], _, _, _, rfl, .matchCreated header,
          .matchCreated _ hopened.playing hopened.digest⟩
      · exact Reads.beforeStep header none hopened
          (fun s hs => hquiet s (List.mem_append_left _ hs)) (hquiet step (by simp))
  | @pending header created steps action events ended hopened hquiet haction hevents hended =>
      right
      obtain rfl | ⟨events, event, rfl⟩ := events.eq_nil_or_concat'
      · cases ended with
        | some outcome => cases hended
        | none => exact ⟨_, _, _, _, rfl, .ready hopened hquiet, .action haction⟩
      · obtain ⟨hevents, hstep, hindex⟩ := eventsInOrder_snoc.mp hevents
        rw [announced_snoc] at hended
        -- the outcome announced so far, without the last event
        obtain ⟨before, hbefore, honce, heq⟩ : ∃ before, announced events = before.toList ∧
            (event.event.outcome = none ∨ before = none) ∧
              ended = event.event.outcome.or before := by
          cases houtcome : event.event.outcome with
          | none =>
              rw [houtcome, Option.toList_none, List.append_nil] at hended
              exact ⟨ended, hended, .inl rfl, by simp⟩
          | some outcome =>
              rw [houtcome] at hended
              cases ended with
              | none => simp at hended
              | some o =>
                  obtain ⟨hnil, ho⟩ := List.append_eq_singleton_iff.mp hended |>.resolve_right
                    (fun hcon => by simp at hcon)
                  cases ho
                  exact ⟨none, hnil, .inr rfl, rfl⟩
        subst heq
        refine ⟨_, .event event, _, _, ?_, .pending hopened hquiet haction hevents hbefore,
          .event _ hstep hindex honce⟩
        simp
  | @terminal header created steps outcome hopened hterminal =>
      right
      obtain ⟨before, step, rfl, hended, hquiet⟩ := hterminal
      exact Reads.beforeStep header (some outcome) hopened hquiet hended
  | final hopened hterminal hended hdigest hlast =>
      exact .inr ⟨_, _, _, _, rfl, .terminal hopened hterminal,
        .finalState hended hdigest (congrArg some hlast.symm)⟩
  | @complete outcome t hopened hterminal hended hdigest hlast hsteps hevents hsame hwinner
      hreason =>
      right
      refine ⟨readRecords t.header t.matchCreated t.steps ++ [.finalState t.finalState],
        .matchCompleted t.matchCompleted, _, _, ?_,
        .final hopened hterminal hended hdigest hlast,
        .matchCompleted hsteps hevents (congrArg some (hlast.symm.trans hsame.symm)) hwinner
          hreason⟩
      simp [TranscriptV1.records, readRecords]

/-! ## The loop -/

/-- The loop of the parser without its sequence numbers. -/
theorem foldFrom_ok_iff {expected : ℕ} {ds : List DecodedRecord} :
    foldFrom compute expected phase b ds = .ok (phase', b') ↔
      ds.map (fun d => recordSequence d.record) = List.range' expected ds.length ∧
        ds.foldlM (fun x d => Summoners.advance compute x.1 d x.2) (phase, b) =
          .ok (phase', b') := by
  induction ds generalizing expected phase b with
  | nil => simp [foldFrom, pure_ok_iff]
  | cons d ds ih =>
      simp only [foldFrom, refuse_ok_iff, not_not, bind_ok_iff, List.map_cons, List.length_cons,
        List.range'_succ, List.cons.injEq, List.foldlM_cons, Prod.exists, ih]
      constructor
      · rintro ⟨hseq, p, c, ha, hseqs, hrest⟩
        exact ⟨⟨hseq, hseqs⟩, p, c, ha, hrest⟩
      · rintro ⟨⟨hseq, hseqs⟩, p, c, ha, hrest⟩
        exact ⟨hseq, p, c, ha, hseqs, hrest⟩

/-- The loop reaches exactly the phases and builders that the invariant describes. -/
theorem foldlM_advance_iff {ds : List DecodedRecord} :
    ds.foldlM (fun x d => Summoners.advance compute x.1 d x.2)
        (ParsePhase.header, TranscriptBuilder.start) = .ok (phase, b) ↔
      Reads compute (ds.map (·.record)) phase b := by
  induction ds using List.reverseRecOn generalizing phase b with
  | nil =>
      rw [List.foldlM_nil, pure_ok_iff]
      constructor
      · intro h
        cases h
        exact .header
      · intro h
        obtain ⟨-, rfl, rfl⟩ | ⟨before, r, p, c, hnil, -⟩ := h.last
        · rfl
        · simp at hnil
  | append_singleton ds d ih =>
      rw [List.foldlM_append, bind_ok_iff, List.map_append, List.map_singleton]
      simp only [List.foldlM_cons, List.foldlM_nil, bind_pure, Prod.exists, ih, advance_ok_iff]
      constructor
      · rintro ⟨p, c, hread, ha⟩
        exact hread.advance ha
      · intro h
        obtain ⟨hnil, -⟩ | ⟨before, r, p, c, heq, hread, ha⟩ := h.last
        · simp at hnil
        · obtain ⟨rfl, hr⟩ := List.append_inj' heq rfl
          cases hr
          exact ⟨p, c, hread, ha⟩

/-- `finish` asks for the last phase and the four single records. -/
theorem finish_ok_iff {t : TranscriptV1} : finish phase b = .ok t ↔ phase = .complete ∧
    b.header = some t.header ∧ b.matchCreated = some t.matchCreated ∧ b.steps = t.steps ∧
      b.finalState = some t.finalState ∧ b.matchCompleted = some t.matchCompleted := by
  cases phase
  case complete =>
    obtain ⟨header, created, steps, final, completed, nextStep, eventCount, digest⟩ := b
    obtain ⟨header', created', steps', final', completed'⟩ := t
    cases header <;> cases created <;> cases final <;> cases completed <;> simp [finish]
  all_goals simp [finish]

/-- The parser returns the transcript whose records it was given, if that is well formed. -/
theorem foldRecords_ok_iff {ds : List DecodedRecord} {t : TranscriptV1} :
    foldRecords compute ds = .ok t ↔
      t.records = ds.map (·.record) ∧ ∃ outcome, t.WellFormed compute outcome := by
  unfold foldRecords
  simp only [bind_ok_iff, Prod.exists, foldFrom_ok_iff, foldlM_advance_iff, finish_ok_iff]
  constructor
  · rintro ⟨phase, b, ⟨hseq, hread⟩, rfl, hheader, hcreated, hsteps, hfinal, hcompleted⟩
    generalize hrecs : ds.map (·.record) = recs at hread
    cases hread with
    | @complete outcome u hopened hterminal hended hdigest hlast hcount hevents hsame hwinner
        hreason =>
        have heq : u = t := by
          cases u
          cases t
          cases hheader
          cases hcreated
          cases hsteps
          cases hfinal
          cases hcompleted
          rfl
        subst heq
        refine ⟨rfl, outcome, ?_, hopened.playing, hopened.digest, hopened.steps, hterminal, hended,
          hdigest, hlast, hcount, hevents, hsame, hwinner, hreason⟩
        rw [← hrecs, List.map_map, List.length_map, List.range_eq_range']
        exact hseq
  · rintro ⟨hrecs, outcome, hwell⟩
    have hread := Reads.complete ⟨hwell.initial_playing, hwell.initial_digest, hwell.steps⟩
      hwell.terminal hwell.final_ended hwell.final_digest hwell.final_last hwell.step_count
      hwell.event_count hwell.digest hwell.winner hwell.reason
    have hseq := hwell.sequence
    rw [hrecs, List.map_map, List.length_map, List.range_eq_range'] at hseq
    rw [hrecs] at hread
    exact ⟨.complete, _, ⟨hseq, hread⟩, rfl, rfl, rfl, rfl, rfl, rfl⟩

end

/-- The parser accepts the lifecycle grammar and nothing else, and keeps every record. -/
theorem fold_records_iff_lifecycle
    (compute : StateProjectionV1 → Except CanonicalStateError StateDigestV1)
    (ds : List DecodedRecord) :
    ((∃ t, foldRecords compute ds = .ok t) ↔ ∃ t outcome,
        TranscriptV1.records t = ds.map (·.record) ∧ t.WellFormed compute outcome) ∧
      ∀ t, foldRecords compute ds = .ok t →
        t.records = ds.map (·.record) ∧ ∃ outcome, t.WellFormed compute outcome := by
  refine ⟨⟨?_, ?_⟩, fun t h => foldRecords_ok_iff.mp h⟩
  · rintro ⟨t, h⟩
    obtain ⟨hrecs, outcome, hwell⟩ := foldRecords_ok_iff.mp h
    exact ⟨t, outcome, hrecs, hwell⟩
  · rintro ⟨t, outcome, hrecs, hwell⟩
    exact ⟨t, foldRecords_ok_iff.mpr ⟨hrecs, outcome, hwell⟩⟩

end Summoners
