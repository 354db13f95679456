import Summoners.Engine.Apply
import Summoners.MatchLog.EventWire
import Summoners.MatchLog.Parse

/-! # Recording a match

`record.rs` over an arbitrary sink. A method that borrows the recording mutably is a computation
that reads and replaces it and can stop with an error, what was replaced before that stays replaced.
-/

namespace Summoners
set_option autoImplicit false

inductive TerminalEventError
  | missingGameEnded
  | multipleGameEnded
  | unexpectedGameEnded
  | outcomeMismatch
  deriving DecidableEq, Repr

inductive RecordingStopped
  | matchCompleted
  | recordingFailed
  | gameAlreadyEnded
  | gameBroken
  | invalidTerminalEvents (error : TerminalEventError)
  deriving DecidableEq, Repr

/-- `io::Error`, as its text. -/
structure IoError where
  message : String
  deriving DecidableEq, Repr

inductive RecordingError
  | canonicalState (error : CanonicalStateError)
  | encode (error : EncodeError)
  | write (error : IoError)
  | flush (error : IoError)
  | stopped (reason : RecordingStopped)
  deriving DecidableEq, Repr

/-- The engine result recorded for one submitted action. -/
inductive RecordedStep
  | accepted (events : List GameEvent)
  | rejected (error : ActionError)
  deriving DecidableEq, Repr

/-- `Lifecycle` of `record.rs`. -/
inductive RecordingLifecycle
  | active
  | stopped (reason : RecordingStopped)
  deriving DecidableEq, Repr

structure RecordedMatch (σ : Type) where
  writer : σ
  state : GameState
  nextSequence : ℕ
  nextStep : ℕ
  totalEvents : ℕ
  lifecycle : RecordingLifecycle

/-- `write_all` and `flush` of the `Write` trait. -/
structure Sink (σ : Type) where
  writeAll : σ → List UInt8 → Except IoError Unit × σ
  flush : σ → Except IoError Unit × σ

/-- A sink that never fails, as the chunks written to it. -/
def Sink.memory : Sink (List (List UInt8)) where
  writeAll chunks bytes := (.ok (), chunks ++ [bytes])
  flush chunks := (.ok (), chunks)

/-! ## The pure core -/

def checkInitialStatus (state : GameState) : Except RecordingStopped Unit :=
  match state.status with
  | .playing => .ok ()
  | .ended _ => .error .gameAlreadyEnded
  | .broken _ => .error .gameBroken

/-- The outcomes that GameEnded events announce. -/
def endedEvents (events : List GameEvent) : List GameOutcome :=
  events.filterMap fun event => match event with
    | .gameEnded winner reason => some ⟨winner, reason⟩
    | _ => none

def checkTerminalEvents (status : GameStatus) (events : List GameEvent) :
    Except TerminalEventError (Option GameOutcome) :=
  match status, endedEvents events with
  | .broken _, _ => .ok none
  | _, _ :: _ :: _ => .error .multipleGameEnded
  | .playing, [] => .ok none
  | .playing, [_] => .error .unexpectedGameEnded
  | .ended _, [] => .error .missingGameEnded
  | .ended expected, [recorded] =>
      if expected = recorded then .ok (some expected) else .error .outcomeMismatch

def prepareAction (sequence step : ℕ) (action : GameAction) : RecordV1 :=
  .action ⟨sequence, step, ActionV1.fromCore action⟩

def prepareEvent (sequence step index : ℕ) (event : GameEvent) : EventRecordV1 :=
  ⟨sequence + index, step, index, EventV1.fromCore event⟩

def prepareAcceptedStep (sequence step : ℕ) (events : List GameEvent) (digest : StateDigestV1) :
    List RecordV1 :=
  events.mapIdx (fun index event => .event (prepareEvent sequence step index event)) ++
    [.stepCompleted ⟨sequence + events.length, step, events.length, digest⟩]

def prepareRejectedStep (sequence step : ℕ) (error : ActionError) (digest : StateDigestV1) :
    RecordV1 :=
  .stepRejected ⟨sequence, step, ErrorV1.ofCore error, digest⟩

structure CompletionCounts where
  sequence : ℕ
  steps : ℕ
  events : ℕ

def prepareCompletion (counts : CompletionCounts) (outcome : GameOutcome)
    (projection : StateProjectionV1) (digest : StateDigestV1) : List RecordV1 :=
  [.finalState ⟨counts.sequence, projection, digest⟩,
    .matchCompleted ⟨counts.sequence + 1, counts.steps, counts.events, digest,
      PlayerIdV1.ofCore outcome.winner, LossReasonV1.ofCore outcome.reason⟩]

def prepareStart (serde : Serde) (metadata : List (String × JsonValue))
    (requiredSets : List SetRequirementV1) (state : GameState) :
    Except RecordingError (RecordV1 × RecordV1) := do
  let projection := StateProjectionV1.fromState state
  let digest ← (serde.compute projection).mapError .canonicalState
  pure (.header (HeaderV1.new metadata),
    .matchCreated (MatchCreatedV1.new requiredSets projection digest))

/-! ## The shell -/

/-- A method of a recording. -/
def Recording (σ α : Type) : Type := RecordedMatch σ → Except RecordingError α × RecordedMatch σ

namespace Recording
variable {σ α β : Type}

def pure (a : α) : Recording σ α := fun m => (.ok a, m)

/-- `?` between two method calls. -/
def bind (x : Recording σ α) (f : α → Recording σ β) : Recording σ β := fun m =>
  match x m with
  | (.ok a, m') => f a m'
  | (.error e, m') => (.error e, m')

instance : Monad (Recording σ) where
  pure := pure
  bind := bind

end Recording

namespace RecordedMatch
variable {σ : Type}

/-- The recording itself. -/
def this : Recording σ (RecordedMatch σ) := fun m => (.ok m, m)

/-- An assignment to fields of `self`. -/
def update (f : RecordedMatch σ → RecordedMatch σ) : Recording σ Unit := fun m => (.ok (), f m)

/-- `stop`: the error is kept, and nothing is recorded any more. -/
def stop {α : Type} (error : RecordingError) : Recording σ α := fun m =>
  (.error error, { m with lifecycle := .stopped .recordingFailed })

/-- The other stops leave their reason behind. -/
def stopWith {α : Type} (reason : RecordingStopped) : Recording σ α := fun m =>
  (.error (.stopped reason), { m with lifecycle := .stopped reason })

def ensureActive : Recording σ Unit := fun m =>
  match m.lifecycle with
  | .active => (.ok (), m)
  | .stopped reason => (.error (.stopped reason), m)

section
variable (serde : Serde) (sink : Sink σ)

def computeDigest (projection : StateProjectionV1) : Recording σ StateDigestV1 :=
  match serde.compute projection with
  | .ok digest => pure digest
  | .error error => stop (.canonicalState error)

/-- `write_record` into the writer of the recording. -/
def writeRecord (bytes : List UInt8) : Recording σ Unit := fun m =>
  match sink.writeAll m.writer bytes with
  | (.ok (), writer) => (.ok (), { m with writer := writer })
  | (.error error, writer) => stop (.write error) { m with writer := writer }

def append (record : RecordV1) : Recording σ Unit :=
  match serde.encodeRecord record with
  | .error error => stop (.encode error)
  | .ok bytes => do
      writeRecord sink bytes
      update fun m => { m with nextSequence := m.nextSequence + 1 }

def appendRecords : List RecordV1 → Recording σ Unit
  | [] => pure ()
  | record :: records => do
      append serde sink record
      appendRecords records

/-- `flush`, with its checkpoint. -/
def flush : Recording σ Unit := fun m =>
  match sink.flush m.writer with
  | (.ok (), writer) => (.ok (), { m with writer := writer })
  | (.error error, writer) => stop (.flush error) { m with writer := writer }

def completeEndedMatch (outcome : GameOutcome) (projection : StateProjectionV1)
    (digest : StateDigestV1) : Recording σ Unit := do
  let m ← this
  appendRecords serde sink (prepareCompletion ⟨m.nextSequence, m.nextStep - 1, m.totalEvents⟩
    outcome projection digest)
  flush sink
  update fun m => { m with lifecycle := .stopped .matchCompleted }

def recordAcceptedStep (step : ℕ) (outcome : ActionOutcome) : Recording σ RecordedStep := do
  update fun m => { m with state := outcome.state }
  let projection := StateProjectionV1.fromState outcome.state
  let digest ← computeDigest serde projection
  let m ← this
  appendRecords serde sink (prepareAcceptedStep m.nextSequence step outcome.events digest)
  flush sink
  update fun m => { m with totalEvents := m.totalEvents + outcome.events.length }
  match checkTerminalEvents outcome.state.status outcome.events with
  | .error error => stopWith (.invalidTerminalEvents error)
  | .ok (some ended) => do
      completeEndedMatch serde sink ended projection digest
      pure (.accepted outcome.events)
  | .ok none =>
      match outcome.state.status with
      | .broken _ => stopWith .gameBroken
      | _ => pure (.accepted outcome.events)

def recordRejectedStep (step : ℕ) (error : ActionError) : Recording σ RecordedStep := do
  let m ← this
  let digest ← computeDigest serde (StateProjectionV1.fromState m.state)
  append serde sink (prepareRejectedStep m.nextSequence step error digest)
  flush sink
  pure (.rejected error)

/-- `submit_with`, given what `apply_action` answers in the state of the recording. -/
def submitWith (action : GameAction) (answer : Except ActionError ActionOutcome) :
    Recording σ RecordedStep := do
  ensureActive
  let m ← this
  append serde sink (prepareAction m.nextSequence m.nextStep action)
  update fun m => { m with nextStep := m.nextStep + 1 }
  match answer with
  | .ok outcome => recordAcceptedStep serde sink m.nextStep outcome
  | .error error => recordRejectedStep serde sink m.nextStep error

/-- `submit`: an active recording asks `apply`. -/
def Submit (m : RecordedMatch σ) (action : GameAction) (result : Except RecordingError RecordedStep)
    (m' : RecordedMatch σ) : Prop :=
  ∃ answer, (m.lifecycle = .active → ∃ fuel, apply fuel m.state action = some answer) ∧
    submitWith serde sink action answer m = (result, m')

/-- Actions submitted one after the other, with what each returned. -/
inductive Submits (m₀ : RecordedMatch σ) :
    List GameAction → List (Except RecordingError RecordedStep) → RecordedMatch σ → Prop
  | nil : Submits m₀ [] [] m₀
  | snoc {actions : List GameAction} {results : List (Except RecordingError RecordedStep)}
      {m m' : RecordedMatch σ} {action : GameAction} {result : Except RecordingError RecordedStep}
      (h : Submits m₀ actions results m) (hs : m.Submit serde sink action result m') :
      Submits m₀ (actions ++ [action]) (results ++ [result]) m'

/-- `start`. -/
def start (writer : σ) (metadata : List (String × JsonValue)) (requiredSets : List SetRequirementV1)
    (initialState : GameState) : Except RecordingError (RecordedMatch σ) := do
  (checkInitialStatus initialState).mapError .stopped
  let (headerRecord, matchCreatedRecord) ← prepareStart serde metadata requiredSets initialState
  let header ← (serde.encodeRecord headerRecord).mapError .encode
  let created ← (serde.encodeRecord matchCreatedRecord).mapError .encode
  let (wrote, writer) := sink.writeAll writer header
  wrote.mapError .write
  let (wrote, writer) := sink.writeAll writer created
  wrote.mapError .write
  let (flushed, writer) := sink.flush writer
  flushed.mapError .flush
  pure
    { writer
      state := initialState
      nextSequence := 2
      nextStep := 1
      totalEvents := 0
      lifecycle := .active }

end

end RecordedMatch

end Summoners
