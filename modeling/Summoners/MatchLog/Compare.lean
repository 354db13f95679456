import Summoners.MatchLog.Parse

/-! # Comparing transcripts

`compare.rs`. Its `OrderedValue` has the constructors of `serde_json::Value`, with the entries of a
map in the order of the text, so `JsonValue` stands for both. `ordered_value` writes a record and
reads it back: the writer is the one of `Serde`, and the reader is a parameter, as `serde_json` is
not part of the repository.
-/

namespace Summoners
set_option autoImplicit false

/-! ## Values -/

/-- `PartialEq` of a `Number`; its floats are finite, and the two zeros are equal. -/
def JsonNumber.eq : JsonNumber → JsonNumber → Bool
  | .posInt n, .posInt n' => n == n'
  | .negInt n, .negInt n' => n == n'
  | .float bits, .float bits' =>
      bits == bits' || (bits <<< 1 == 0 && bits' <<< 1 == 0)
  | _, _ => false

namespace JsonValue

mutual

/-- The derived `PartialEq`. -/
def eq : JsonValue → JsonValue → Bool
  | .null, .null => true
  | .bool b, .bool b' => b == b'
  | .number n, .number n' => n.eq n'
  | .string text, .string text' => text == text'
  | .array values, .array values' => eqItems values values'
  | .object fields, .object fields' => eqFields fields fields'
  | _, _ => false

def eqItems : List JsonValue → List JsonValue → Bool
  | [], [] => true
  | value :: values, value' :: values' => value.eq value' && eqItems values values'
  | _, _ => false

def eqFields : List (String × JsonValue) → List (String × JsonValue) → Bool
  | [], [] => true
  | (name, value) :: fields, (name', value') :: fields' =>
      name == name' && value.eq value' && eqFields fields fields'
  | _, _ => false

end

/-- Of neighbours with one name the last stays. -/
def lastOfEach : List (String × JsonValue) → List (String × JsonValue)
  | [] => []
  | [field] => [field]
  | field :: next :: fields =>
      if field.1 = next.1 then lastOfEach (next :: fields)
      else field :: lastOfEach (next :: fields)

/-- `collect::<Map<_, _>>()`: a `BTreeMap` is built from its sorted entries. -/
def collectMap (fields : List (String × JsonValue)) : JsonValue :=
  .object (lastOfEach (fields.mergeSort (fun a b => decide (a.1 ≤ b.1))))

mutual

def intoJson : JsonValue → JsonValue
  | .array values => .array (itemsIntoJson values)
  | .object fields => collectMap (fieldsIntoJson fields)
  | .null => .null
  | .bool value => .bool value
  | .number value => .number value
  | .string value => .string value

def itemsIntoJson : List JsonValue → List JsonValue
  | [] => []
  | value :: values => value.intoJson :: itemsIntoJson values

def fieldsIntoJson : List (String × JsonValue) → List (String × JsonValue)
  | [] => []
  | (name, value) :: fields => (name, value.intoJson) :: fieldsIntoJson fields

end

def removeMappingField (field : String) : JsonValue → JsonValue
  | .object fields => .object (fields.filter (fun f => f.1 ≠ field))
  | value => value

/-- The value of the first entry of a name. -/
def lookup (name : String) (fields : List (String × JsonValue)) : Option JsonValue :=
  (fields.find? (fun f => f.1 = name)).map (·.2)

end JsonValue

/-! ## The first difference of two values -/

structure ValueDifference where
  path : String
  expected : Option JsonValue
  actual : Option JsonValue

/-- `format!("{path}[{index}]")`. -/
def itemPath (path : String) (index : ℕ) : String := path ++ "[" ++ toString index ++ "]"

mutual

/-- `first_value_difference` of a value that the expected side has. -/
def differenceFrom : JsonValue → Option JsonValue → String → Option ValueDifference
  | .array expected, some (.array actual), path => itemDifference path 0 expected actual
  | .object expected, some (.object actual), path =>
      (fieldDifference path actual expected).or
        ((actual.find? (fun f => expected.all (fun e => e.1 ≠ f.1))).map
          fun f => ⟨joinPath path f.1, none, some f.2.intoJson⟩)
  | expected, some actual, path =>
      if expected.eq actual then none else some ⟨path, some expected.intoJson, some actual.intoJson⟩
  | expected, none, path => some ⟨path, some expected.intoJson, none⟩

/-- The loop over the indexes of the longer sequence, from `index` on. -/
def itemDifference (path : String) (index : ℕ) :
    List JsonValue → List JsonValue → Option ValueDifference
  | [], [] => none
  | [], actual :: _ => some ⟨itemPath path index, none, some actual.intoJson⟩
  | expected :: values, actual =>
      (differenceFrom expected actual.head? (itemPath path index)).or
        (itemDifference path (index + 1) values actual.tail)

/-- The loop over the fields of the expected mapping. -/
def fieldDifference (path : String) (actual : List (String × JsonValue)) :
    List (String × JsonValue) → Option ValueDifference
  | [] => none
  | (name, expected) :: fields =>
      (differenceFrom expected (JsonValue.lookup name actual) (joinPath path name)).or
        (fieldDifference path actual fields)

end

def firstValueDifference (expected actual : Option JsonValue) (path : String) :
    Option ValueDifference :=
  match expected with
  | some expected => differenceFrom expected actual path
  | none => some ⟨path, none, actual.map JsonValue.intoJson⟩

/-! ## Records in order -/

structure ComparisonOptions where
  includeHeaderMetadata : Bool
  deriving DecidableEq, Repr

structure RecordView where
  sequence : ℕ
  step : Option ℕ
  eventIndex : Option ℕ
  path : String
  value : RecordV1

/-- What is pushed for one step. -/
def stepRecords (index : ℕ) (step : TranscriptStepV1) : List RecordView :=
  let path := "steps[" ++ toString index ++ "]"
  ⟨step.action.sequence, some step.action.step, none, path ++ ".action", .action step.action⟩ ::
    match step.result with
    | .accepted events completion =>
        events.mapIdx (fun position event =>
          ⟨event.sequence, some event.step, some event.index,
            path ++ ".result.events[" ++ toString position ++ "]", .event event⟩) ++
          [⟨completion.sequence, some completion.step, none, path ++ ".result.completion",
            .stepCompleted completion⟩]
    | .rejected rejection =>
        [⟨rejection.sequence, some rejection.step, none, path ++ ".result.rejection",
          .stepRejected rejection⟩]

def transcriptRecords (t : TranscriptV1) : List RecordView :=
  ⟨t.header.sequence, none, none, "header", .header t.header⟩ ::
    ⟨t.matchCreated.sequence, none, none, "match_created", .matchCreated t.matchCreated⟩ ::
      ((t.steps.mapIdx stepRecords).flatten ++
        [⟨t.finalState.sequence, none, none, "final_state", .finalState t.finalState⟩,
          ⟨t.matchCompleted.sequence, none, none, "match_completed",
            .matchCompleted t.matchCompleted⟩])

/-! ## Two transcripts -/

structure TranscriptDifference where
  sequence : ℕ
  step : Option ℕ
  eventIndex : Option ℕ
  path : String
  expected : Option JsonValue
  actual : Option JsonValue

inductive TranscriptComparison
  | equal
  | different (difference : TranscriptDifference)

inductive TranscriptComparisonError
  | expectedParse (error : ParseError)
  | actualParse (error : ParseError)
  | valueEncoding (message : String)
  deriving DecidableEq, Repr

def recordDifference (expected actual : RecordView) (difference : ValueDifference) :
    TranscriptDifference where
  sequence := min expected.sequence actual.sequence
  step := expected.step.or actual.step
  eventIndex := expected.eventIndex.or actual.eventIndex
  path := difference.path
  expected := difference.expected
  actual := difference.actual

section
variable (serde : Serde) (fromSlice : List UInt8 → Except String JsonValue)

def orderedValue (record : RecordV1) : Except TranscriptComparisonError JsonValue := do
  let bytes ← (serde.toVec record).mapError fun error => .valueEncoding error.message
  (fromSlice bytes).mapError .valueEncoding

/-- `RecordView::value`. -/
def RecordView.read (view : RecordView) (options : ComparisonOptions) :
    Except TranscriptComparisonError JsonValue := do
  let value ← orderedValue serde fromSlice view.value
  match view.value with
  | .header _ =>
      pure (if options.includeHeaderMetadata then value else value.removeMappingField "metadata")
  | _ => pure value

/-- The loop over the records that both transcripts have, and the match on the first record that only
one of them has. -/
def compareRecords (options : ComparisonOptions) :
    List RecordView → List RecordView → Except TranscriptComparisonError TranscriptComparison
  | [], [] => .ok .equal
  | expected :: expectedRecords, actual :: actualRecords => do
      let expectedValue ← expected.read serde fromSlice options
      let actualValue ← actual.read serde fromSlice options
      match firstValueDifference (some expectedValue) (some actualValue) expected.path with
      | some difference => pure (.different (recordDifference expected actual difference))
      | none => compareRecords options expectedRecords actualRecords
  | expected :: _, [] => do
      let value ← expected.read serde fromSlice options
      pure (.different (recordDifference expected expected
        ⟨expected.path, some value.intoJson, none⟩))
  | [], actual :: _ => do
      let value ← actual.read serde fromSlice options
      pure (.different (recordDifference actual actual ⟨actual.path, none, some value.intoJson⟩))

def compareParsedTranscripts (expected actual : TranscriptV1) (options : ComparisonOptions) :
    Except TranscriptComparisonError TranscriptComparison :=
  compareRecords serde fromSlice options (transcriptRecords expected) (transcriptRecords actual)

/-- `compare_transcripts` of bytes in memory. -/
def compareTranscripts (expected actual : List UInt8) (options : ComparisonOptions) :
    Except TranscriptComparisonError TranscriptComparison := do
  let expected ← (TranscriptV1.parse serde expected).mapError .expectedParse
  let actual ← (TranscriptV1.parse serde actual).mapError .actualParse
  compareParsedTranscripts serde fromSlice expected actual options

end

end Summoners
