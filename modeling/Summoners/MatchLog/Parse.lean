import Summoners.MatchLog.Json
import Summoners.MatchLog.Lifecycle

/-! # Parsing a transcript

The first half of `parse.rs`: lines of bytes to decoded records. `Serde` holds what the repository
takes from elsewhere, the JSON readers and writers that are derived for the wire types and SHA-256.
-/

namespace Summoners
set_option autoImplicit false

/-- `EncodeError`, as the text `serde_json` reports. -/
structure EncodeError where
  message : String
  deriving DecidableEq, Repr

/-- The failure of a typed reader: where it stopped, and why. -/
structure TypedFailure where
  path : String
  message : String
  deriving DecidableEq, Repr

structure Serde where
  /-- `serde_json::to_vec` of a record. -/
  toVec : RecordV1 → Except EncodeError (List UInt8)
  /-- `StateProjectionV1::canonical_bytes`. -/
  canonicalBytes : StateProjectionV1 → Except CanonicalStateError (List UInt8)
  sha256 : List UInt8 → Vector UInt8 32
  /-- `serde_json::from_str` to a `Value`. -/
  fromStr : String → Except String JsonValue
  decodeHeader : String → Except TypedFailure HeaderV1
  decodeMatchCreated : String → Except TypedFailure MatchCreatedV1
  decodeAction : String → Except TypedFailure ActionRecordV1
  decodeEvent : String → Except TypedFailure EventRecordV1
  decodeStepCompleted : String → Except TypedFailure StepCompletedV1
  decodeStepRejected : String → Except TypedFailure StepRejectedV1
  decodeFinalState : String → Except TypedFailure FinalStateV1
  decodeMatchCompleted : String → Except TypedFailure MatchCompletedV1

/-- `sha256:`. -/
def digestPrefix : List Char := ['s', 'h', 'a', '2', '5', '6', ':']

/-- The text of a digest. -/
def digestText (bytes : Vector UInt8 32) : String :=
  String.ofList (digestPrefix ++ bytes.toList.flatMap EntityId.lowerHex)

/-- `StateDigestV1::compute`. -/
def Serde.compute (serde : Serde) (state : StateProjectionV1) :
    Except CanonicalStateError StateDigestV1 := do
  let bytes ← serde.canonicalBytes state
  pure ⟨digestText (serde.sha256 bytes)⟩

/-- `encode_record`. -/
def Serde.encodeRecord (serde : Serde) (record : RecordV1) : Except EncodeError (List UInt8) := do
  let bytes ← serde.toVec record
  pure (bytes ++ [10])

/-! ## Canonical values -/

def joinPath (parent child : String) : String :=
  if parent = "" then child else parent ++ "." ++ child

def validateEntityId (value path : String) (context : ParseContext) : Except ParseError Unit :=
  if (EntityIdV1.mk value).isCanonical then .ok ()
  else .error ⟨.invalidEntityId value, withPath context path⟩

/-- The condition of `validate_digest`. -/
def isDigestText (value : String) : Bool :=
  value.utf8ByteSize = 71 && digestPrefix.isPrefixOf value.toList &&
    (value.toList.drop 7).all (fun c =>
      let n := c.toNat
      (48 ≤ n && n ≤ 57) || (97 ≤ n && n ≤ 102))

def validateDigest (value path : String) (context : ParseContext) : Except ParseError Unit :=
  if isDigestText value then .ok ()
  else .error ⟨.invalidStateDigest value, withPath context path⟩

/-- What the name of a field asks of a text in it. -/
def validateNamed (name : String) (child : JsonValue) (path : String) (context : ParseContext) :
    Except ParseError Unit :=
  match child.asStr with
  | none => .ok ()
  | some text =>
      if name = "ability" ∨ name = "definition" ∨ name = "entity" then
        validateEntityId text path context
      else if name = "state_digest" then validateDigest text path context
      else .ok ()

mutual

def validateCanonicalValues (path : String) (context : ParseContext) :
    JsonValue → Except ParseError Unit
  | .object fields => validateFields path context fields
  | .array values => validateItems path context 0 values
  | .null | .bool _ | .number _ | .string _ => .ok ()

/-- The loop over the fields of a map. -/
def validateFields (path : String) (context : ParseContext) :
    List (String × JsonValue) → Except ParseError Unit
  | [] => .ok ()
  | (name, child) :: fields => do
      validateNamed name child (joinPath path name) context
      validateCanonicalValues (joinPath path name) context child
      validateFields path context fields

/-- The loop over the values of an array. -/
def validateItems (path : String) (context : ParseContext) :
    ℕ → List JsonValue → Except ParseError Unit
  | _, [] => .ok ()
  | index, child :: values => do
      validateCanonicalValues (path ++ "[" ++ toString index ++ "]") context child
      validateItems path context (index + 1) values

end

/-! ## One record -/

def contextFromValue (line : ℕ) (value : JsonValue) : ParseContext where
  line := some line
  sequence := (value.get "sequence").bind JsonValue.asU64
  step := (value.get "step").bind JsonValue.asU64
  eventIndex := (value.get "index").bind JsonValue.asU64
  path := none

/-- `decode_typed`, of a reader's answer. -/
def decodeTyped {α : Type} (answer : Except TypedFailure α) (context : ParseContext) :
    Except ParseError α :=
  answer.mapError fun failure =>
    ⟨.invalidRecord failure.message,
      if failure.path = "." then context else withPath context failure.path⟩

def decodeHeaderRecord (serde : Serde) (text : String) (context : ParseContext) :
    Except ParseError RecordV1 := do
  let header ← decodeTyped (serde.decodeHeader text) context
  if header.format ≠ "summoners_match" then
    .error ⟨.unsupportedFormat header.format, withPath context "format"⟩
  else if header.formatVersion ≠ 1 then
    .error ⟨.unsupportedVersion header.formatVersion, withPath context "format_version"⟩
  else .ok (.header header)

/-- The record a tag announces. -/
def decodeTagged (serde : Serde) (tag text : String) (context : ParseContext) :
    Except ParseError RecordV1 :=
  match tag with
  | "header" => decodeHeaderRecord serde text context
  | "match_created" => .matchCreated <$> decodeTyped (serde.decodeMatchCreated text) context
  | "action" => .action <$> decodeTyped (serde.decodeAction text) context
  | "event" => .event <$> decodeTyped (serde.decodeEvent text) context
  | "step_completed" => .stepCompleted <$> decodeTyped (serde.decodeStepCompleted text) context
  | "step_rejected" => .stepRejected <$> decodeTyped (serde.decodeStepRejected text) context
  | "final_state" => .finalState <$> decodeTyped (serde.decodeFinalState text) context
  | "match_completed" => .matchCompleted <$> decodeTyped (serde.decodeMatchCompleted text) context
  | unknown =>
      .error (invalidRecord context "record" ("unknown record variant `" ++ unknown ++ "`"))

/-- A context that knows the line alone. -/
def lineContext (line : ℕ) : ParseContext := { ParseContext.default with line := some line }

def decodeRecord (serde : Serde) (bytes : List UInt8) (line : ℕ) :
    Except ParseError DecodedRecord :=
  match String.fromUTF8? ⟨bytes.toArray⟩ with
  | none => .error ⟨.invalidUtf8, lineContext line⟩
  | some text => do
      let value ← (serde.fromStr text).mapError fun message =>
        ⟨.malformedJson message, lineContext line⟩
      let context := contextFromValue line value
      match (value.get "record").bind JsonValue.asStr with
      | none => .error (invalidRecord context "record" "missing or invalid record field")
      | some tag => do
          if tag = "header" then pure () else validateCanonicalValues "" context value
          let record ← decodeTagged serde tag text context
          pure ⟨line, record⟩

/-! ## All lines -/

/-- `read_until(b'\n')` until nothing is left: every line but the last one keeps its line feed. -/
def readLines : List UInt8 → List (List UInt8)
  | [] => []
  | byte :: bytes =>
      if byte = 10 then [byte] :: readLines bytes
      else
        match readLines bytes with
        | [] => [[byte]]
        | line :: lines => (byte :: line) :: lines

/-- A line without its line feed, nor the carriage return before that. -/
def chomp (bytes : List UInt8) : List UInt8 :=
  if bytes.getLast? = some 10 then
    if bytes.dropLast.getLast? = some 13 then bytes.dropLast.dropLast else bytes.dropLast
  else bytes

def decodeLines (serde : Serde) : ℕ → List (List UInt8) → Except ParseError (List DecodedRecord)
  | _, [] => .ok []
  | number, line :: lines => do
      let record ← decodeRecord serde (chomp line) number
      let records ← decodeLines serde (number + 1) lines
      pure (record :: records)

/-- `TranscriptV1::parse` of bytes in memory, which are read without an error. -/
def TranscriptV1.parse (serde : Serde) (bytes : List UInt8) : Except ParseError TranscriptV1 := do
  let records ← decodeLines serde 1 (readLines bytes)
  foldRecords serde.compute records

end Summoners
