import Summoners.MatchLog.StateWire

/-! # Transcript records

`HeaderV1`, `MatchCreatedV1` and `RecordV1` of `wire.rs`, and `wire/records.rs`. The `record` field
of each kind has one value, which is the constructor of `RecordV1` here.
-/

namespace Summoners
set_option autoImplicit false

/-- `serde_json::Number`; a float is kept as its bits. -/
inductive JsonNumber
  | posInt (n : ℕ)
  | negInt (n : Int)
  | float (bits : UInt64)
  deriving DecidableEq, Repr

/-- `serde_json::Value`; a map is the list of its entries in the order of iteration. -/
inductive JsonValue
  | null
  | bool (value : Bool)
  | number (value : JsonNumber)
  | string (value : String)
  | array (values : List JsonValue)
  | object (fields : List (String × JsonValue))

structure StateDigestV1 where
  text : String
  deriving DecidableEq, Repr

structure HeaderV1 where
  sequence : ℕ
  format : String
  formatVersion : UInt32
  metadata : List (String × JsonValue)

/-- `HeaderV1::new`. -/
def HeaderV1.new (metadata : List (String × JsonValue)) : HeaderV1 :=
  ⟨0, "summoners_match", 1, metadata⟩

structure SetRequirementV1 where
  set : String
  revision : UInt32
  deriving DecidableEq, Repr

structure MatchCreatedV1 where
  sequence : ℕ
  requiredSets : List SetRequirementV1
  initialState : StateProjectionV1
  stateDigest : StateDigestV1
  deriving DecidableEq, Repr

/-- `MatchCreatedV1::new`. -/
def MatchCreatedV1.new (requiredSets : List SetRequirementV1) (initialState : StateProjectionV1)
    (stateDigest : StateDigestV1) : MatchCreatedV1 :=
  ⟨1, requiredSets, initialState, stateDigest⟩

structure ActionRecordV1 where
  sequence : ℕ
  step : ℕ
  action : ActionV1
  deriving DecidableEq, Repr

structure EventRecordV1 where
  sequence : ℕ
  step : ℕ
  index : ℕ
  event : EventV1
  deriving DecidableEq, Repr

structure StepCompletedV1 where
  sequence : ℕ
  step : ℕ
  eventCount : ℕ
  stateDigest : StateDigestV1
  deriving DecidableEq, Repr

structure StepRejectedV1 where
  sequence : ℕ
  step : ℕ
  error : ErrorV1
  stateDigest : StateDigestV1
  deriving DecidableEq, Repr

structure FinalStateV1 where
  sequence : ℕ
  finalState : StateProjectionV1
  stateDigest : StateDigestV1
  deriving DecidableEq, Repr

structure MatchCompletedV1 where
  sequence : ℕ
  stepCount : ℕ
  eventCount : ℕ
  stateDigest : StateDigestV1
  winner : PlayerIdV1
  reason : LossReasonV1
  deriving DecidableEq, Repr

inductive RecordV1
  | header (value : HeaderV1)
  | matchCreated (value : MatchCreatedV1)
  | action (value : ActionRecordV1)
  | event (value : EventRecordV1)
  | stepCompleted (value : StepCompletedV1)
  | stepRejected (value : StepRejectedV1)
  | finalState (value : FinalStateV1)
  | matchCompleted (value : MatchCompletedV1)

/-! ## What a parser reads off a record -/

def recordSequence : RecordV1 → ℕ
  | .header value => value.sequence
  | .matchCreated value => value.sequence
  | .action value => value.sequence
  | .event value => value.sequence
  | .stepCompleted value => value.sequence
  | .stepRejected value => value.sequence
  | .finalState value => value.sequence
  | .matchCompleted value => value.sequence

def recordStep : RecordV1 → Option ℕ
  | .action value => some value.step
  | .event value => some value.step
  | .stepCompleted value => some value.step
  | .stepRejected value => some value.step
  | .header _ | .matchCreated _ | .finalState _ | .matchCompleted _ => none

def recordName : RecordV1 → String
  | .header _ => "header"
  | .matchCreated _ => "match_created"
  | .action _ => "action"
  | .event _ => "event"
  | .stepCompleted _ => "step_completed"
  | .stepRejected _ => "step_rejected"
  | .finalState _ => "final_state"
  | .matchCompleted _ => "match_completed"

/-- `CanonicalStateError`, as the text `serde_json` reports. -/
structure CanonicalStateError where
  message : String
  deriving DecidableEq, Repr

end Summoners
