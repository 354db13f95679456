import Summoners.MatchLog.Records

/-! # The lifecycle parser

`parse_error.rs` and the second half of `parse.rs`: `fold_records` reads decoded records one by one
through the phases of a match and collects a transcript. `StateDigestV1::compute` is a parameter,
as SHA-256 and the JSON bytes are not part of the repository; it can fail with the encoder.
-/

namespace Summoners
set_option autoImplicit false

structure ParseContext where
  line : Option ℕ
  sequence : Option ℕ
  step : Option ℕ
  eventIndex : Option ℕ
  path : Option String
  deriving DecidableEq, Repr

/-- `ParseContext::default()`. -/
def ParseContext.default : ParseContext := ⟨none, none, none, none, none⟩

inductive LifecycleError
  | unexpectedRecord (expected found : String)
  | sequence (expected found : ℕ)
  | step (expected found : ℕ)
  | eventIndex (expected found : ℕ)
  | eventCount (expected found : ℕ)
  | eventWithoutAction
  | actionBeforeStepResult
  | rejectedStepHasEvents
  | rejectedDigestMismatch
  | initialStateDigestMismatch
  | invalidInitialStatus
  | missingGameEnded
  | multipleGameEnded
  | recordAfterTerminalStep
  | finalStateDigestMismatch
  | finalStateNotEnded
  | outcomeMismatch
  | completionStepCount (expected found : ℕ)
  | completionEventCount (expected found : ℕ)
  | completionDigestMismatch
  | recordAfterCompletion
  | incomplete (expected : String)
  deriving DecidableEq, Repr

inductive ParseErrorKind
  | read (message : String)
  | invalidUtf8
  | malformedJson (message : String)
  | invalidRecord (message : String)
  | invalidEntityId (value : String)
  | invalidStateDigest (value : String)
  | unsupportedFormat (found : String)
  | unsupportedVersion (found : UInt32)
  | lifecycle (error : LifecycleError)
  deriving DecidableEq, Repr

structure ParseError where
  kind : ParseErrorKind
  context : ParseContext
  deriving DecidableEq, Repr

/-! ## Transcripts -/

inductive TranscriptStepResultV1
  | accepted (events : List EventRecordV1) (completion : StepCompletedV1)
  | rejected (rejection : StepRejectedV1)
  deriving DecidableEq, Repr

structure TranscriptStepV1 where
  action : ActionRecordV1
  result : TranscriptStepResultV1
  deriving DecidableEq, Repr

structure TranscriptV1 where
  header : HeaderV1
  matchCreated : MatchCreatedV1
  steps : List TranscriptStepV1
  finalState : FinalStateV1
  matchCompleted : MatchCompletedV1

/-! ## The phases -/

structure DecodedRecord where
  line : ℕ
  record : RecordV1

structure PendingStep where
  action : ActionRecordV1
  events : List EventRecordV1
  gameEnded : Option GameOutcomeV1

/-- `Phase` of `parse.rs`. -/
inductive ParsePhase
  | header
  | matchCreated
  | ready
  | pending (step : PendingStep)
  | terminal (outcome : GameOutcomeV1)
  | final (outcome : GameOutcomeV1)
  | complete

structure TranscriptBuilder where
  header : Option HeaderV1
  matchCreated : Option MatchCreatedV1
  steps : List TranscriptStepV1
  finalState : Option FinalStateV1
  matchCompleted : Option MatchCompletedV1
  nextStep : ℕ
  eventCount : ℕ
  digest : Option StateDigestV1

/-- The builder `fold_records` starts with. -/
def TranscriptBuilder.start : TranscriptBuilder := ⟨none, none, [], none, none, 1, 0, none⟩

/-! ## Errors with their context -/

def recordContext (decoded : DecodedRecord) (path : Option String) : ParseContext where
  line := some decoded.line
  sequence := some (recordSequence decoded.record)
  step := recordStep decoded.record
  eventIndex := match decoded.record with
    | .event event => some event.index
    | _ => none
  path := path

def lifecycleError (decoded : DecodedRecord) (path : String) (error : LifecycleError) :
    ParseError :=
  ⟨.lifecycle error, recordContext decoded (some path)⟩

def unexpected (decoded : DecodedRecord) (expected : String) (found : RecordV1) : ParseError :=
  lifecycleError decoded "record" (.unexpectedRecord expected (recordName found))

/-- `path.trim_start_matches('.')`. -/
def trimStartDots (path : String) : String := String.ofList (path.toList.dropWhile (· = '.'))

def withPath (context : ParseContext) (path : String) : ParseContext :=
  { context with path := some (trimStartDots path) }

def invalidRecord (context : ParseContext) (path message : String) : ParseError :=
  ⟨.invalidRecord message, withPath context path⟩

/-! ## Checks -/

def validateStep (decoded : DecodedRecord) (expected found : ℕ) : Except ParseError Unit :=
  if found = expected then .ok ()
  else .error (lifecycleError decoded "step" (.step expected found))

section
variable (compute : StateProjectionV1 → Except CanonicalStateError StateDigestV1)

/-- `StateDigestV1::compute` with its error placed at a field of the record. -/
def computeAt (decoded : DecodedRecord) (path : String) (state : StateProjectionV1) :
    Except ParseError StateDigestV1 :=
  (compute state).mapError fun error =>
    invalidRecord (recordContext decoded none) path error.message

def validateInitialState (decoded : DecodedRecord) (created : MatchCreatedV1) :
    Except ParseError Unit :=
  match created.initialState.status with
  | .playing => do
      let computed ← computeAt compute decoded "initial_state" created.initialState
      if computed ≠ created.stateDigest then
        .error (lifecycleError decoded "state_digest" .initialStateDigestMismatch)
      else .ok ()
  | _ => .error (lifecycleError decoded "initial_state.status" .invalidInitialStatus)

def validateFinalState (decoded : DecodedRecord) (final : FinalStateV1)
    (terminal : GameOutcomeV1) (authoritative : Option StateDigestV1) : Except ParseError Unit :=
  match final.finalState.status with
  | .ended outcome =>
      if outcome ≠ terminal then
        .error (lifecycleError decoded "final_state.status.outcome" .outcomeMismatch)
      else do
        let computed ← computeAt compute decoded "final_state" final.finalState
        if authoritative ≠ some final.stateDigest ∨ computed ≠ final.stateDigest then
          .error (lifecycleError decoded "state_digest" .finalStateDigestMismatch)
        else .ok ()
  | _ => .error (lifecycleError decoded "final_state.status" .finalStateNotEnded)

end

def validateCompletion (decoded : DecodedRecord) (completed : MatchCompletedV1)
    (terminal : GameOutcomeV1) (builder : TranscriptBuilder) : Except ParseError Unit :=
  if completed.stepCount ≠ builder.steps.length then
    .error (lifecycleError decoded "step_count"
      (.completionStepCount builder.steps.length completed.stepCount))
  else if completed.eventCount ≠ builder.eventCount then
    .error (lifecycleError decoded "event_count"
      (.completionEventCount builder.eventCount completed.eventCount))
  else if builder.digest ≠ some completed.stateDigest then
    .error (lifecycleError decoded "state_digest" .completionDigestMismatch)
  else if completed.winner ≠ terminal.winner then
    .error (lifecycleError decoded "winner" .outcomeMismatch)
  else if completed.reason ≠ terminal.reason then
    .error (lifecycleError decoded "reason" .outcomeMismatch)
  else .ok ()

/-! ## One record -/

/-- The event arm of a pending step. -/
def advanceEvent (decoded : DecodedRecord) (pending : PendingStep) (event : EventRecordV1) :
    Except ParseError PendingStep := do
  validateStep decoded pending.action.step event.step
  if event.index ≠ pending.events.length then
    .error (lifecycleError decoded "index" (.eventIndex pending.events.length event.index))
  else
    match event.event with
    | .gameEnded winner reason =>
        if pending.gameEnded.isSome then
          .error (lifecycleError decoded "event.kind" .multipleGameEnded)
        else
          .ok { pending with
            gameEnded := some ⟨winner, reason⟩
            events := pending.events ++ [event] }
    | _ => .ok { pending with events := pending.events ++ [event] }

/-- The step_completed arm of a pending step. -/
def advanceCompleted (decoded : DecodedRecord) (pending : PendingStep)
    (completion : StepCompletedV1) (builder : TranscriptBuilder) :
    Except ParseError (ParsePhase × TranscriptBuilder) := do
  validateStep decoded pending.action.step completion.step
  if completion.eventCount ≠ pending.events.length then
    .error (lifecycleError decoded "event_count"
      (.eventCount pending.events.length completion.eventCount))
  else
    .ok (pending.gameEnded.elim .ready .terminal,
      { builder with
        eventCount := builder.eventCount + pending.events.length
        digest := some completion.stateDigest
        steps := builder.steps ++ [⟨pending.action, .accepted pending.events completion⟩]
        nextStep := builder.nextStep + 1 })

/-- The step_rejected arm of a pending step. -/
def advanceRejected (decoded : DecodedRecord) (pending : PendingStep)
    (rejection : StepRejectedV1) (builder : TranscriptBuilder) :
    Except ParseError (ParsePhase × TranscriptBuilder) := do
  validateStep decoded pending.action.step rejection.step
  if pending.events ≠ [] then
    .error (lifecycleError decoded "record" .rejectedStepHasEvents)
  else if builder.digest ≠ some rejection.stateDigest then
    .error (lifecycleError decoded "state_digest" .rejectedDigestMismatch)
  else
    .ok (.ready,
      { builder with
        steps := builder.steps ++ [⟨pending.action, .rejected rejection⟩]
        nextStep := builder.nextStep + 1 })

section
variable (compute : StateProjectionV1 → Except CanonicalStateError StateDigestV1)

def advance (phase : ParsePhase) (decoded : DecodedRecord) (builder : TranscriptBuilder) :
    Except ParseError (ParsePhase × TranscriptBuilder) :=
  match phase, decoded.record with
  | .header, .header header => .ok (.matchCreated, { builder with header := some header })
  | .header, record => .error (unexpected decoded "header" record)
  | .matchCreated, .matchCreated created => do
      validateInitialState compute decoded created
      pure (.ready,
        { builder with digest := some created.stateDigest, matchCreated := some created })
  | .matchCreated, record => .error (unexpected decoded "match_created" record)
  | .ready, .action action => do
      validateStep decoded builder.nextStep action.step
      pure (.pending ⟨action, [], none⟩, builder)
  | .ready, .event _ => .error (lifecycleError decoded "record" .eventWithoutAction)
  | .ready, .finalState _ => .error (lifecycleError decoded "record" .missingGameEnded)
  | .ready, record => .error (unexpected decoded "action" record)
  | .pending pending, .event event => do
      let pending ← advanceEvent decoded pending event
      pure (.pending pending, builder)
  | .pending pending, .stepCompleted completion =>
      advanceCompleted decoded pending completion builder
  | .pending pending, .stepRejected rejection => advanceRejected decoded pending rejection builder
  | .pending _, .action _ => .error (lifecycleError decoded "record" .actionBeforeStepResult)
  | .pending _, record => .error (unexpected decoded "event or step result" record)
  | .terminal outcome, .finalState final => do
      validateFinalState compute decoded final outcome builder.digest
      pure (.final outcome, { builder with finalState := some final })
  | .terminal _, _ => .error (lifecycleError decoded "record" .recordAfterTerminalStep)
  | .final outcome, .matchCompleted completed => do
      validateCompletion decoded completed outcome builder
      pure (.complete, { builder with matchCompleted := some completed })
  | .final _, record => .error (unexpected decoded "match_completed" record)
  | .complete, _ => .error (lifecycleError decoded "record" .recordAfterCompletion)

/-! ## All records -/

def expectedAfter : ParsePhase → String
  | .header => "header"
  | .matchCreated => "match_created"
  | .ready => "the next action and terminal step"
  | .pending pending =>
      if pending.events = [] then "the step result" else "the remaining events or step result"
  | .terminal _ => "final_state"
  | .final _ => "match_completed"
  | .complete => "no more records"

def incomplete (expected : String) : ParseError :=
  ⟨.lifecycle (.incomplete expected), ParseContext.default⟩

def finish (phase : ParsePhase) (builder : TranscriptBuilder) : Except ParseError TranscriptV1 :=
  match phase with
  | .complete =>
      match builder.header, builder.matchCreated, builder.finalState, builder.matchCompleted with
      | some header, some created, some final, some completed =>
          .ok ⟨header, created, builder.steps, final, completed⟩
      | _, _, _, _ => .error (incomplete "all required records")
  | phase => .error (incomplete (expectedAfter phase))

/-- The loop of `fold_records`, with the sequence number the next record must carry. -/
def foldFrom : ℕ → ParsePhase → TranscriptBuilder → List DecodedRecord →
    Except ParseError (ParsePhase × TranscriptBuilder)
  | _, phase, builder, [] => .ok (phase, builder)
  | expected, phase, builder, decoded :: records =>
      if recordSequence decoded.record ≠ expected then
        .error (lifecycleError decoded "sequence"
          (.sequence expected (recordSequence decoded.record)))
      else do
        let (phase, builder) ← advance compute phase decoded builder
        foldFrom (expected + 1) phase builder records

def foldRecords (records : List DecodedRecord) : Except ParseError TranscriptV1 := do
  let (phase, builder) ← foldFrom compute 0 .header TranscriptBuilder.start records
  finish phase builder

end

end Summoners
