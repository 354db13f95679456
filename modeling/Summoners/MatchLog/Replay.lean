import Summoners.Cards.Library
import Summoners.Engine.Apply
import Summoners.MatchLog.EventWire
import Summoners.MatchLog.Parse

/-! # Replaying a transcript

`replay.rs`: a parsed transcript is verified by playing its actions again through the engine. The
engine is fuelled, so that a replay answers `none` where the fuel does not bring a drain to rest.
-/

namespace Summoners
set_option autoImplicit false

inductive ReplayPhase
  | requirements
  | initialState
  | step
  | completion
  deriving DecidableEq, Repr

structure ReplayLocation where
  phase : ReplayPhase
  step : Option ℕ
  eventIndex : Option ℕ
  path : String
  deriving DecidableEq, Repr

namespace ReplayLocation

def requirements (path : String) : ReplayLocation := ⟨.requirements, none, none, path⟩

def initial (path : String) : ReplayLocation := ⟨.initialState, none, none, path⟩

/-- `ReplayLocation::step`. -/
def atStep (step : ℕ) (eventIndex : Option ℕ) (path : String) : ReplayLocation :=
  ⟨.step, some step, eventIndex, path⟩

def completion (path : String) : ReplayLocation := ⟨.completion, none, none, path⟩

end ReplayLocation

inductive ReplayStepResult
  | accepted
  | rejected (error : ErrorV1)
  deriving DecidableEq

inductive ReplayDivergenceKind
  | setRevision (set : String) (expected : UInt32) (actual : Option UInt32)
  | initialProjection (expected actual : StateProjectionV1)
  | stepResult (expected actual : ReplayStepResult)
  | event (expected actual : Option EventV1)
  | rejectedError (expected actual : ErrorV1)
  | rejectedState (expected actual : StateProjectionV1)
  | cardSetIdentity
  | stateDigest (expected actual : StateDigestV1)
  | finalState (expected actual : StateProjectionV1)
  | gameEndedCount (expected actual : ℕ)
  | gameEndedOutcome (expected actual : GameOutcomeV1)
  | winner (expected actual : PlayerIdV1)
  | lossReason (expected actual : LossReasonV1)
  | stepCount (expected actual : ℕ)
  | eventCount (expected actual : ℕ)

structure ReplayDivergence where
  location : ReplayLocation
  kind : ReplayDivergenceKind

inductive ReplayError
  | parse (error : ParseError)
  | stateRebuild (location : ReplayLocation) (error : StateRebuildError)
  | wireConversion (location : ReplayLocation) (error : WireConversionError)
  | canonicalState (location : ReplayLocation) (error : CanonicalStateError)
  | divergence (divergence : ReplayDivergence)

/-- `ReplayError::location`. -/
def ReplayError.location : ReplayError → Option ReplayLocation
  | .parse _ => none
  | .stateRebuild location _ | .wireConversion location _ | .canonicalState location _ => some location
  | .divergence found => some found.location

namespace Replay

def divergence (location : ReplayLocation) (kind : ReplayDivergenceKind) : ReplayError :=
  .divergence ⟨location, kind⟩

section
variable (compute : StateProjectionV1 → Except CanonicalStateError StateDigestV1)

def computeDigest (projection : StateProjectionV1) (location : ReplayLocation) :
    Except ReplayError StateDigestV1 :=
  (compute projection).mapError (.canonicalState location)

def verifyDigest (expected : StateDigestV1) (projection : StateProjectionV1)
    (location : ReplayLocation) : Except ReplayError Unit := do
  let actual ← computeDigest compute projection location
  if actual = expected then .ok ()
  else .error (divergence location (.stateDigest expected actual))

/-! ## The initial state -/

def validateRequiredSetsWith (requirements : List SetRequirementV1)
    (setRevision : String → Option UInt32) : Except ReplayError Unit :=
  requirements.forM fun requirement =>
    let actual := setRevision requirement.set
    if actual ≠ some requirement.revision then
      .error (divergence (.requirements "match_created.required_sets.revision")
        (.setRevision requirement.set requirement.revision actual))
    else .ok ()

def verifyInitialState (expectedProjection : StateProjectionV1) (expectedDigest : StateDigestV1)
    (state : GameState) : Except ReplayError Unit :=
  let actualProjection := StateProjectionV1.fromState state
  if actualProjection ≠ expectedProjection then
    .error (divergence (.initial "match_created.initial_state")
      (.initialProjection expectedProjection actualProjection))
  else
    verifyDigest compute expectedDigest actualProjection (.initial "match_created.state_digest")

def prepareInitialStateWith (requirements : List SetRequirementV1) (projection : StateProjectionV1)
    (digest : StateDigestV1) (setRevision : String → Option UInt32) (coreCards : CardSet) :
    Except ReplayError GameState := do
  validateRequiredSetsWith requirements setRevision
  let state ← (projection.intoGameState coreCards).mapError
    (.stateRebuild (.initial "match_created.initial_state"))
  verifyInitialState compute projection digest state
  pure state

/-! ## The steps -/

structure ReplayFacts where
  stepCount : ℕ
  eventCount : ℕ
  gameEnded : List GameOutcomeV1

/-- `ReplayFacts::default()`. -/
def ReplayFacts.default : ReplayFacts := ⟨0, 0, []⟩

/-- The body of the loop over the events of a step. -/
def verifyEvent (step : ℕ) (expectedEvents : List EventRecordV1) (events : List GameEvent)
    (index : ℕ) : Except ReplayError Unit := do
  let expected := expectedEvents[index]?
  let actual := events[index]?
  let expectedCore ← match expected with
    | none => .ok none
    | some record =>
        (some <$> record.event.tryIntoCore).mapError
          (.wireConversion (.atStep step (some index) "events.event"))
  if expectedCore ≠ actual then
    .error (divergence (.atStep step (some index) "events.event")
      (.event (expected.map (·.event)) (actual.map EventV1.fromCore)))
  else .ok ()

def verifyAcceptedStep (step : ℕ) (expectedEvents : List EventRecordV1)
    (expectedDigest : StateDigestV1) (outcome : ActionOutcome) :
    Except ReplayError StateDigestV1 := do
  (List.range (max expectedEvents.length outcome.events.length)).forM
    (verifyEvent step expectedEvents outcome.events)
  let projection := StateProjectionV1.fromState outcome.state
  verifyDigest compute expectedDigest projection (.atStep step none "state_digest")
  computeDigest compute projection (.atStep step none "state_digest")

/-- What the engine does to the state it is given: its answer, the state afterwards, and whether that
still shares its card pool. -/
structure EngineAnswer where
  result : Except ActionError ActionOutcome
  after : GameState
  sharesCards : Bool

def verifyRejectedStep (stepNumber : ℕ) (rejection : StepRejectedV1) (actualError : ActionError)
    (before after : GameState) (sharesCards : Bool) (beforeDigest : StateDigestV1) :
    Except ReplayError Unit :=
  let expectedError := ErrorV1.ofCore.symm rejection.error
  if actualError ≠ expectedError then
    .error (divergence (.atStep stepNumber none "error")
      (.rejectedError rejection.error (ErrorV1.ofCore actualError)))
  else
    let expectedProjection := StateProjectionV1.fromState before
    let actualProjection := StateProjectionV1.fromState after
    if actualProjection ≠ expectedProjection then
      .error (divergence (.atStep stepNumber none "state")
        (.rejectedState expectedProjection actualProjection))
    else if !sharesCards then
      .error (divergence (.atStep stepNumber none "state.cards") .cardSetIdentity)
    else do
      verifyDigest compute beforeDigest (StateProjectionV1.fromState after)
        (.atStep stepNumber none "state")
      if rejection.stateDigest ≠ beforeDigest then
        .error (divergence (.atStep stepNumber none "state_digest")
          (.stateDigest rejection.stateDigest beforeDigest))
      else .ok ()

/-- The outcomes that GameEnded events announce, on the wire. -/
def gameEndedOf (events : List GameEvent) : List GameOutcomeV1 :=
  events.filterMap fun event => match event with
    | .gameEnded winner reason => some ⟨PlayerIdV1.ofCore winner, LossReasonV1.ofCore reason⟩
    | _ => none

def recordEvents (facts : ReplayFacts) (events : List GameEvent) : ReplayFacts :=
  { facts with
    eventCount := facts.eventCount + events.length
    gameEnded := facts.gameEnded ++ gameEndedOf events }

/-- The variables of the loop over the steps. -/
structure ReplayState where
  state : GameState
  digest : StateDigestV1
  facts : ReplayFacts

/-- The body of that loop, once the engine has answered. -/
def replayAnswer (current : ReplayState) (step : TranscriptStepV1) (answer : EngineAnswer) :
    Except ReplayError ReplayState := do
  let number := step.action.step
  let next ← match step.result, answer.result with
    | .accepted events completion, .ok outcome => do
        let digest ← verifyAcceptedStep compute number events completion.stateDigest outcome
        pure (⟨outcome.state, digest, recordEvents current.facts outcome.events⟩ : ReplayState)
    | .accepted .., .error error =>
        .error (divergence (.atStep number none "result")
          (.stepResult .accepted (.rejected (ErrorV1.ofCore error))))
    | .rejected rejection, .error error => do
        verifyRejectedStep compute number rejection error current.state answer.after
          answer.sharesCards current.digest
        pure { current with state := answer.after }
    | .rejected rejection, .ok _ =>
        .error (divergence (.atStep number none "result")
          (.stepResult (.rejected rejection.error) .accepted))
  pure { next with facts := { next.facts with stepCount := next.facts.stepCount + 1 } }

variable (engine : GameState → GameAction → Option EngineAnswer)

def replayStep (current : ReplayState) (step : TranscriptStepV1) :
    Option (Except ReplayError ReplayState) :=
  match step.action.action.tryIntoCore with
  | .error error => some (.error (.wireConversion (.atStep step.action.step none "action") error))
  | .ok action => (engine current.state action).map (replayAnswer compute current step)

def replayFrom : ReplayState → List TranscriptStepV1 → Option (Except ReplayError ReplayState)
  | current, [] => some (.ok current)
  | current, step :: steps =>
      match replayStep compute engine current step with
      | some (.ok next) => replayFrom next steps
      | answer => answer

/-- `replay_steps_with`. -/
def replayStepsWith (steps : List TranscriptStepV1) (state : GameState) :
    Option (Except ReplayError ReplayState) :=
  match computeDigest compute (StateProjectionV1.fromState state)
      (.initial "match_created.state_digest") with
  | .error error => some (.error error)
  | .ok digest => replayFrom compute engine ⟨state, digest, .default⟩ steps

/-! ## The end -/

def verifyWinnerAndReason (completion : MatchCompletedV1) (actual : GameOutcomeV1) :
    Except ReplayError Unit :=
  if completion.winner ≠ actual.winner then
    .error (divergence (.completion "match_completed.winner")
      (.winner completion.winner actual.winner))
  else if completion.reason ≠ actual.reason then
    .error (divergence (.completion "match_completed.reason")
      (.lossReason completion.reason actual.reason))
  else .ok ()

/-- The outcome of the one GameEnded event, checked against the status. -/
def verifyOutcome (status : GameStatus) (gameEnded : List GameOutcomeV1) :
    Except ReplayError GameOutcomeV1 :=
  match gameEnded with
  | [actualOutcome] =>
      match status with
      | .ended outcome =>
          if GameOutcomeV1.ofCore outcome ≠ actualOutcome then
            .error (divergence (.completion "final_state.final_state.status.outcome")
              (.gameEndedOutcome (GameOutcomeV1.ofCore outcome) actualOutcome))
          else .ok actualOutcome
      | .playing | .broken _ =>
          .error (divergence (.completion "final_state.final_state.status") (.gameEndedCount 1 0))
  | _ => .error (divergence (.completion "events.game_ended") (.gameEndedCount 1 gameEnded.length))

def verifyCompletion (transcript : TranscriptV1) (state : GameState) (facts : ReplayFacts) :
    Except ReplayError Unit := do
  let actualProjection := StateProjectionV1.fromState state
  if actualProjection ≠ transcript.finalState.finalState then
    .error (divergence (.completion "final_state.final_state")
      (.finalState transcript.finalState.finalState actualProjection))
  else
    let actualOutcome ← verifyOutcome state.status facts.gameEnded
    let completion := transcript.matchCompleted
    verifyWinnerAndReason completion actualOutcome
    if completion.stepCount ≠ facts.stepCount then
      .error (divergence (.completion "match_completed.step_count")
        (.stepCount completion.stepCount facts.stepCount))
    else if completion.eventCount ≠ facts.eventCount then
      .error (divergence (.completion "match_completed.event_count")
        (.eventCount completion.eventCount facts.eventCount))
    else do
      verifyDigest compute transcript.finalState.stateDigest (StateProjectionV1.fromState state)
        (.completion "final_state.state_digest")
      verifyDigest compute completion.stateDigest (StateProjectionV1.fromState state)
        (.completion "match_completed.state_digest")

end

/-! ## A transcript -/

/-- `apply`, as the replay asks it: it leaves the state it is given alone. -/
def applyEngine (fuel : ℕ) (state : GameState) (action : GameAction) : Option EngineAnswer :=
  (apply fuel state action).map (fun result => ⟨result, state, true⟩)

def verifyParsedTranscript (compute : StateProjectionV1 → Except CanonicalStateError StateDigestV1)
    (fuel : ℕ) (transcript : TranscriptV1) (library : CardLibrary) :
    Option (Except ReplayError Unit) :=
  let created := transcript.matchCreated
  match prepareInitialStateWith compute created.requiredSets created.initialState created.stateDigest
      library.setRevision library.coreCards with
  | .error error => some (.error error)
  | .ok initialState =>
      (replayStepsWith compute (applyEngine fuel) transcript.steps initialState).map fun replayed => do
        let last ← replayed
        verifyCompletion compute transcript last.state last.facts

/-- `verify_transcript` of bytes in memory. -/
def verifyTranscript (serde : Serde) (fuel : ℕ) (bytes : List UInt8) (library : CardLibrary) :
    Option (Except ReplayError Unit) :=
  match TranscriptV1.parse serde bytes with
  | .error error => some (.error (.parse error))
  | .ok transcript => verifyParsedTranscript serde.compute fuel transcript library

end Replay

end Summoners
