import Summoners.Proof.ComparedRecords
import Summoners.Proof.Grammar
import Summoners.Proof.KnownTexts

/-! # Comparison names the first difference

A transcript is compared as the list of its records, and in a well-formed one a record stands at its
sequence number. Where `serde_json` reads back what it writes, a comparison gives no error, is `equal`
on equal transcripts only, and otherwise names the first record that differs and the first path in it.
-/

namespace Summoners
set_option autoImplicit false
open Checked JsonValue

/-- `PartialEq` of two transcripts. -/
structure TranscriptV1.Equal (options : ComparisonOptions) (t t' : TranscriptV1) : Prop where
  header : t.header.Equal options t'.header
  matchCreated : t.matchCreated = t'.matchCreated
  steps : t.steps = t'.steps
  finalState : t.finalState = t'.finalState
  matchCompleted : t.matchCompleted = t'.matchCompleted

/-! ## The records of a transcript -/

/-- Where a record stands behind `step` whole steps and `event` events of its own step. -/
def recordPath (step event : ℕ) : RecordV1 → String
  | .header _ => "header"
  | .matchCreated _ => "match_created"
  | .action _ => "steps[" ++ toString step ++ "]" ++ ".action"
  | .event _ => "steps[" ++ toString step ++ "]" ++ ".result.events[" ++ toString event ++ "]"
  | .stepCompleted _ => "steps[" ++ toString step ++ "]" ++ ".result.completion"
  | .stepRejected _ => "steps[" ++ toString step ++ "]" ++ ".result.rejection"
  | .finalState _ => "final_state"
  | .matchCompleted _ => "match_completed"

def viewOf (path : String) (record : RecordV1) : RecordView where
  sequence := recordSequence record
  step := recordStep record
  eventIndex := match record with
    | .event event => some event.index
    | _ => none
  path := path
  value := record

/-- The whole steps behind a record. -/
def stepsAfter (step : ℕ) : RecordV1 → ℕ
  | .stepCompleted _ | .stepRejected _ => step + 1
  | _ => step

/-- The events behind a record in its step. -/
def eventsAfter (event : ℕ) : RecordV1 → ℕ
  | .event _ => event + 1
  | _ => 0

/-- The views of records, from `step` whole steps and `event` events on. -/
def labelled (step event : ℕ) : List RecordV1 → List RecordView
  | [] => []
  | record :: records => viewOf (recordPath step event record) record ::
      labelled (stepsAfter step record) (eventsAfter event record) records

theorem labelled_events (step event : ℕ) (events : List EventRecordV1) (rest : List RecordV1) :
    labelled step event (events.map .event ++ rest) =
      events.mapIdx (fun position e => viewOf (recordPath step (event + position) (.event e))
        (.event e)) ++ labelled step (event + events.length) rest := by
  induction events generalizing event with
  | nil => rfl
  | cons e events ih =>
      rw [List.map_cons, List.cons_append, labelled, List.mapIdx_cons, List.cons_append]
      show _ :: labelled step (event + 1) _ = _
      rw [ih]
      have hnext : ∀ position, event + 1 + position = event + (position + 1) := by omega
      simp only [hnext, List.length_cons, Nat.add_zero]

theorem labelled_step (index : ℕ) (step : TranscriptStepV1) (rest : List RecordV1) (event : ℕ) :
    labelled index event (step.records ++ rest) =
      stepRecords index step ++ labelled (index + 1) 0 rest := by
  cases hresult : step.result with
  | accepted events completion =>
      have hrecords : step.records ++ rest = .action step.action ::
          (events.map .event ++ (.stepCompleted completion :: rest)) := by
        simp [TranscriptStepV1.records, hresult]
      rw [hrecords, labelled]
      show _ :: labelled index 0 _ = _
      rw [labelled_events]
      simp only [Nat.zero_add]
      simp [stepRecords, hresult, labelled, viewOf, recordPath, stepsAfter, eventsAfter,
        recordSequence, recordStep]
  | rejected rejection =>
      simp [TranscriptStepV1.records, hresult, stepRecords, labelled, viewOf, recordPath,
        stepsAfter, eventsAfter, recordSequence, recordStep]

theorem labelled_steps (index event : ℕ) (steps : List TranscriptStepV1) (rest : List RecordV1)
    (h : steps = [] → event = 0) :
    labelled index event (steps.flatMap TranscriptStepV1.records ++ rest) =
      (steps.mapIdx fun i => stepRecords (index + i)).flatten ++
        labelled (index + steps.length) 0 rest := by
  induction steps generalizing index event with
  | nil =>
      rw [h rfl]
      rfl
  | cons step steps ih =>
      rw [List.flatMap_cons, List.append_assoc, labelled_step, ih (index + 1) 0 (fun _ => rfl)]
      have hnext : ∀ i, index + 1 + i = index + (i + 1) := by omega
      simp only [hnext, List.mapIdx_cons, List.flatten_cons, List.append_assoc, Nat.add_zero,
        List.length_cons]

/-- The views of a transcript are those of its records. -/
theorem transcriptRecords_eq (t : TranscriptV1) : transcriptRecords t = labelled 0 0 t.records := by
  rw [TranscriptV1.records, labelled, labelled]
  show _ = _ :: _ :: labelled 0 0 _
  rw [labelled_steps 0 0 _ _ (fun _ => rfl)]
  simp only [Nat.zero_add]
  simp [transcriptRecords, labelled, viewOf, recordPath, recordSequence, recordStep]

theorem labelled_value (step event : ℕ) (records : List RecordV1) :
    (labelled step event records).map (·.value) = records := by
  induction records generalizing step event with
  | nil => rfl
  | cons record records ih =>
      rw [labelled, List.map_cons, ih]
      rfl

theorem labelled_sequence (step event : ℕ) (records : List RecordV1) :
    (labelled step event records).map (·.sequence) = records.map recordSequence := by
  induction records generalizing step event with
  | nil => rfl
  | cons record records ih =>
      rw [labelled, List.map_cons, List.map_cons, ih]
      rfl

theorem recordPath_eq {step event : ℕ} {r r' : RecordV1} (h : recordName r = recordName r') :
    recordPath step event r = recordPath step event r' := by
  cases r <;> cases r' <;> first | rfl | simp [recordName] at h

theorem stepsAfter_eq {step : ℕ} {r r' : RecordV1} (h : recordName r = recordName r') :
    stepsAfter step r = stepsAfter step r' := by
  cases r <;> cases r' <;> first | rfl | simp [recordName] at h

theorem eventsAfter_eq {event : ℕ} {r r' : RecordV1} (h : recordName r = recordName r') :
    eventsAfter event r = eventsAfter event r' := by
  cases r <;> cases r' <;> first | rfl | simp [recordName] at h

/-- Behind records of the same kinds, records of one kind stand at the same path. -/
theorem labelled_path {step event k : ℕ} {records records' : List RecordV1} {v v' : RecordView}
    (hbefore : ∀ j < k, ∀ w w', (labelled step event records)[j]? = some w →
      (labelled step event records')[j]? = some w' → recordName w.value = recordName w'.value)
    (hv : (labelled step event records)[k]? = some v)
    (hv' : (labelled step event records')[k]? = some v')
    (hname : recordName v.value = recordName v'.value) : v.path = v'.path := by
  induction k generalizing step event records records' with
  | zero =>
      cases records with
      | nil => cases hv
      | cons r records =>
          cases records' with
          | nil => cases hv'
          | cons r' records' =>
              cases hv
              cases hv'
              exact recordPath_eq hname
  | succ k ih =>
      cases records with
      | nil => cases hv
      | cons r records =>
          cases records' with
          | nil => cases hv'
          | cons r' records' =>
              have hhead : recordName r = recordName r' := hbefore 0 (Nat.succ_pos k) _ _ rfl rfl
              rw [labelled, List.getElem?_cons_succ] at hv hv'
              rw [← stepsAfter_eq hhead, ← eventsAfter_eq hhead] at hv'
              refine ih (fun j hj w w' hw hw' => ?_) hv hv'
              rw [stepsAfter_eq hhead, eventsAfter_eq hhead] at hw'
              exact hbefore (j + 1) (by omega) w w' hw hw'

/-! ## Two transcripts -/

theorem mem_transcriptRecords {t : TranscriptV1} {view : RecordView}
    (h : view ∈ transcriptRecords t) : view.value ∈ t.records := by
  rw [transcriptRecords_eq] at h
  have hmem := List.mem_map_of_mem (f := (·.value)) h
  rwa [labelled_value] at hmem

/-- In a well-formed transcript a record stands at its sequence number. -/
theorem sequence_transcriptRecords {t : TranscriptV1} {view : RecordView} {k : ℕ}
    (hsequence : t.records.map recordSequence = List.range t.records.length)
    (h : (transcriptRecords t)[k]? = some view) : view.sequence = k := by
  have hview : ((transcriptRecords t).map (·.sequence))[k]? = some view.sequence := by
    rw [List.getElem?_map, h]
    rfl
  rw [transcriptRecords_eq, labelled_sequence, hsequence] at hview
  obtain ⟨hlt, hk⟩ := List.getElem?_eq_some_iff.mp hview
  rw [← hk, List.getElem_range]

theorem RecordV1.eq_of_equal {options : ComparisonOptions} {r r' : RecordV1}
    (h : r.Equal options r') (hheader : recordName r ≠ "header") : r = r' := by
  cases r
  case header => exact absurd rfl hheader
  all_goals exact h

theorem equal_records {options : ComparisonOptions} {rs rs' : List RecordV1}
    (h : List.Forall₂ (RecordV1.Equal options) rs rs')
    (hheader : ∀ r ∈ rs, recordName r ≠ "header") : rs = rs' := by
  induction h with
  | nil => rfl
  | cons hequal _ ih =>
      rw [List.forall_mem_cons] at hheader
      rw [RecordV1.eq_of_equal hequal hheader.1, ih hheader.2]

theorem RecordV1.Equal.refl {options : ComparisonOptions} {r : RecordV1}
    (hheader : recordName r ≠ "header") : r.Equal options r := by
  cases r
  case header => exact absurd rfl hheader
  all_goals rfl

/-- Only the first record of a transcript is a header. -/
theorem tail_not_header {t : TranscriptV1} : ∀ r ∈ t.records.tail, recordName r ≠ "header" := by
  intro r hr
  simp only [TranscriptV1.records, List.tail_cons, List.mem_cons, List.mem_append,
    List.mem_flatMap, List.not_mem_nil, or_false] at hr
  obtain rfl | ⟨step, -, hr⟩ | rfl | rfl := hr
  · simp [recordName]
  · cases hresult : step.result <;> simp only [TranscriptStepV1.records, hresult] at hr
    · simp only [List.mem_cons, List.mem_append, List.mem_map, List.not_mem_nil, or_false] at hr
      obtain rfl | ⟨e, -, rfl⟩ | rfl := hr <;> simp [recordName]
    · simp only [List.mem_cons, List.not_mem_nil, or_false] at hr
      obtain rfl | rfl := hr <;> simp [recordName]
  · simp [recordName]
  · simp [recordName]

/-- A transcript is the only well-formed one of its records. -/
theorem WellFormed.unique {compute : StateProjectionV1 → Except CanonicalStateError StateDigestV1}
    {outcome outcome' : GameOutcomeV1} {t t' : TranscriptV1} (h : t.WellFormed compute outcome)
    (h' : t'.WellFormed compute outcome') (hrecords : t.records = t'.records) : t = t' := by
  let ds : List DecodedRecord := t.records.map fun record => ⟨0, record⟩
  have hds : t.records = ds.map (·.record) := by
    rw [List.map_map]
    exact (List.map_id _).symm
  have hfold : foldRecords compute ds = .ok t := foldRecords_ok_iff.mpr ⟨hds, outcome, h⟩
  have hfold' : foldRecords compute ds = .ok t' :=
    foldRecords_ok_iff.mpr ⟨hrecords ▸ hds, outcome', h'⟩
  rw [hfold] at hfold'
  exact Except.ok.inj hfold'

/-- Well-formed transcripts are equal if and only if their records are. -/
theorem TranscriptV1.equal_iff {options : ComparisonOptions}
    {compute : StateProjectionV1 → Except CanonicalStateError StateDigestV1}
    {outcome outcome' : GameOutcomeV1} {t t' : TranscriptV1} (h : t.WellFormed compute outcome)
    (h' : t'.WellFormed compute outcome') :
    t.Equal options t' ↔ List.Forall₂ (RecordV1.Equal options) t.records t'.records := by
  constructor
  · intro hequal
    have htail : t.records.tail = t'.records.tail := by
      simp [TranscriptV1.records, hequal.matchCreated, hequal.steps, hequal.finalState,
        hequal.matchCompleted]
    refine .cons hequal.header ?_
    show List.Forall₂ _ t.records.tail t'.records.tail
    rw [← htail, List.forall₂_same]
    exact fun r hr => RecordV1.Equal.refl (tail_not_header r hr)
  · intro hrecords
    cases hrecords with
    | cons hheader htail =>
        have hrest : t.records.tail = t'.records.tail := equal_records htail tail_not_header
        have hequal : t.header.Equal options t'.header := hheader
        -- the first transcript under the header of the second one
        let u : TranscriptV1 := { t with header := t'.header }
        have hu : u.records = t'.records := by
          show RecordV1.header t'.header :: t.records.tail = _
          rw [hrest]
          rfl
        have hwell : u.WellFormed compute outcome := by
          refine { h with sequence := ?_ }
          rw [hu]
          exact h'.sequence
        rw [← WellFormed.unique hwell h' hu]
        exact ⟨hequal, rfl, rfl, rfl, rfl⟩

/-! ## Swapping the sides -/

theorem JsonNumber.eq_comm (n n' : JsonNumber) : n.eq n' = n'.eq n := by
  cases n <;> cases n' <;> simp only [JsonNumber.eq]
  case float.float bits bits' => rw [Bool.beq_comm, Bool.and_comm]
  all_goals rw [Bool.beq_comm]

mutual

theorem JsonValue.eq_comm (v v' : JsonValue) : v.eq v' = v'.eq v := by
  match v with
  | .null => cases v' <;> rfl
  | .bool b => cases v' <;> simp only [JsonValue.eq, Bool.beq_comm]
  | .number n => cases v' <;> simp only [JsonValue.eq, JsonNumber.eq_comm n]
  | .string text => cases v' <;> simp only [JsonValue.eq, Bool.beq_comm]
  | .array values =>
      cases v' with
      | array values' => exact JsonValue.eqItems_comm values values'
      | _ => rfl
  | .object fields =>
      cases v' with
      | object fields' => exact JsonValue.eqFields_comm fields fields'
      | _ => rfl

theorem JsonValue.eqItems_comm (values values' : List JsonValue) :
    eqItems values values' = eqItems values' values := by
  match values, values' with
  | [], [] => rfl
  | [], _ :: _ => rfl
  | _ :: _, [] => rfl
  | value :: values, value' :: values' =>
      rw [eqItems, eqItems, JsonValue.eq_comm value value', JsonValue.eqItems_comm values values']

theorem JsonValue.eqFields_comm (fields fields' : List (String × JsonValue)) :
    eqFields fields fields' = eqFields fields' fields := by
  match fields, fields' with
  | [], [] => rfl
  | [], _ :: _ => rfl
  | _ :: _, [] => rfl
  | (name, value) :: fields, (name', value') :: fields' =>
      rw [eqFields, eqFields, JsonValue.eq_comm value value',
        JsonValue.eqFields_comm fields fields', Bool.beq_comm]

end

theorem TranscriptV1.Equal.symm {options : ComparisonOptions} {t t' : TranscriptV1}
    (h : t.Equal options t') : t'.Equal options t where
  header :=
    { sequence := h.header.sequence.symm
      format := h.header.format.symm
      formatVersion := h.header.formatVersion.symm
      metadata := fun hoptions => by
        rw [JsonValue.eq_comm]
        exact h.header.metadata hoptions }
  matchCreated := h.matchCreated.symm
  steps := h.steps.symm
  finalState := h.finalState.symm
  matchCompleted := h.matchCompleted.symm

theorem TranscriptV1.equal_comm {options : ComparisonOptions} {t t' : TranscriptV1} :
    t.Equal options t' ↔ t'.Equal options t :=
  ⟨TranscriptV1.Equal.symm, TranscriptV1.Equal.symm⟩

/-! ## The comparison -/

/-- `d` names the first difference of two transcripts: the record of its sequence number, under the
path of the expected record, or of the actual one where there is no expected one, and the first path
in it. Records of one kind stand at that path in both. -/
structure NamesFirst (serde : Serde) (fromSlice : List UInt8 → Except String JsonValue)
    (options : ComparisonOptions) (expected actual : TranscriptV1) (d : TranscriptDifference)
    (view : RecordView) (p : List Segment) : Prop where
  record : (transcriptRecords expected)[d.sequence]?.or (transcriptRecords actual)[d.sequence]? =
    some view
  path : d.path = pathText view.path p
  expectedValue : d.expected =
    (at? p (valueAt serde fromSlice options (transcriptRecords expected) d.sequence)).map intoJson
  actualValue : d.actual =
    (at? p (valueAt serde fromSlice options (transcriptRecords actual) d.sequence)).map intoJson
  before : ∀ k < d.sequence, Agree
    (valueAt serde fromSlice options (transcriptRecords expected) k)
    (valueAt serde fromSlice options (transcriptRecords actual) k)
  first : FirstAt
    (valueAt serde fromSlice options (transcriptRecords expected) d.sequence)
    (valueAt serde fromSlice options (transcriptRecords actual) d.sequence) p
  same_path : ∀ a, (transcriptRecords actual)[d.sequence]? = some a →
    recordName a.value = recordName view.value → a.path = view.path

section
variable {serde : Serde} {fromSlice : List UInt8 → Except String JsonValue}
  {options : ComparisonOptions}

/-- Values that agree are those of equal records. -/
theorem equal_of_agree {views views' : List RecordView} {k : ℕ} {v v' : RecordView}
    (hread : ∀ view ∈ views, serde.ReadsInOrder fromSlice view.value)
    (hread' : ∀ view ∈ views', serde.ReadsInOrder fromSlice view.value)
    (hv : views[k]? = some v) (hv' : views'[k]? = some v')
    (h : Agree (valueAt serde fromSlice options views k)
      (valueAt serde fromSlice options views' k)) : v.value.Equal options v'.value := by
  obtain ⟨value, hvalue, -, hjson⟩ :=
    RecordView.read_ok options (hread v (List.mem_of_getElem? hv))
  obtain ⟨value', hvalue', -, hjson'⟩ :=
    RecordView.read_ok options (hread' v' (List.mem_of_getElem? hv'))
  unfold valueAt at h
  rw [hv, hv', Option.bind_some, Option.bind_some, hvalue, hvalue'] at h
  cases h with
  | some hsame => exact (same_iff_equal hjson hjson').mp hsame

/-- A report about the records of two transcripts names their first difference. -/
theorem NamesFirst.of_reportsAt {expected actual : TranscriptV1} {d : TranscriptDifference} {k : ℕ}
    {p : List Segment}
    (hsequence : expected.records.map recordSequence = List.range expected.records.length)
    (hsequence' : actual.records.map recordSequence = List.range actual.records.length)
    (hread : ∀ view ∈ transcriptRecords expected, serde.ReadsInOrder fromSlice view.value)
    (hread' : ∀ view ∈ transcriptRecords actual, serde.ReadsInOrder fromSlice view.value)
    (h : ReportsAt serde fromSlice options (transcriptRecords expected) (transcriptRecords actual)
      d k p) : ∃ view, NamesFirst serde fromSlice options expected actual d view p := by
  obtain ⟨e, a, he, ha, rfl⟩ := h.reported
  have hin : ∀ {t t' : TranscriptV1} {v : RecordView},
      t.records.map recordSequence = List.range t.records.length →
      t'.records.map recordSequence = List.range t'.records.length →
      (transcriptRecords t)[k]?.or (transcriptRecords t')[k]? = some v → v.sequence = k := by
    intro t t' v ht ht' hv
    rcases Option.or_eq_some_iff.mp hv with hv | ⟨-, hv⟩
    · exact sequence_transcriptRecords ht hv
    · exact sequence_transcriptRecords ht' hv
  have hk : min e.sequence a.sequence = k := by
    rw [hin hsequence hsequence' he, hin hsequence' hsequence ha, Nat.min_self]
  refine ⟨e, ?_⟩
  constructor
  all_goals simp only [recordDifference, hk]
  · exact he
  · exact h.before
  · exact h.first
  · intro b hb hname
    rcases Option.or_eq_some_iff.mp he with he | ⟨-, he⟩
    · have hkinds : ∀ j < k, ∀ v v', (transcriptRecords expected)[j]? = some v →
          (transcriptRecords actual)[j]? = some v' → recordName v.value = recordName v'.value :=
        fun j hj v v' hv hv' =>
          recordName_eq_of_equal (equal_of_agree hread hread' hv hv' (h.before j hj))
      rw [transcriptRecords_eq] at he hb hkinds
      rw [transcriptRecords_eq] at hkinds
      exact (labelled_path hkinds he hb hname.symm).symm
    · rw [hb] at he
      cases he
      rfl

theorem forall₂_transcriptRecords {expected actual : TranscriptV1} :
    List.Forall₂ (fun e a => e.value.Equal options a.value) (transcriptRecords expected)
      (transcriptRecords actual) ↔
    List.Forall₂ (RecordV1.Equal options) expected.records actual.records := by
  rw [← labelled_value 0 0 expected.records, ← labelled_value 0 0 actual.records,
    ← transcriptRecords_eq, ← transcriptRecords_eq, List.forall₂_map_left_iff,
    List.forall₂_map_right_iff]

end

/-- Two transcripts the parser accepts are compared without an error; the answer is `equal` if and
only if they are, whichever comes first, and otherwise names their first difference. -/
theorem comparison_names_first_difference (serde : Serde)
    (fromSlice : List UInt8 → Except String JsonValue) (options : ComparisonOptions)
    (expectedBytes actualBytes : List UInt8) (expected actual : TranscriptV1)
    (hexpected : TranscriptV1.parse serde expectedBytes = .ok expected)
    (hactual : TranscriptV1.parse serde actualBytes = .ok actual)
    (hserde : ∀ record, record ∈ expected.records ∨ record ∈ actual.records →
      serde.ReadsInOrder fromSlice record) :
    ∃ result, compareParsedTranscripts serde fromSlice expected actual options = .ok result ∧
      (result = .equal ↔ expected.Equal options actual) ∧
      (∀ d, result = .different d →
        ∃ view p, NamesFirst serde fromSlice options expected actual d view p) ∧
      (compareParsedTranscripts serde fromSlice actual expected options = .ok .equal ↔
        result = .equal) := by
  have hwell : ∀ {bytes : List UInt8} {t : TranscriptV1}, TranscriptV1.parse serde bytes = .ok t →
      ∃ outcome, t.WellFormed serde.compute outcome := by
    intro bytes t h
    obtain ⟨ds, -, hfold⟩ := bind_ok_iff.mp h
    exact (foldRecords_ok_iff.mp hfold).2
  obtain ⟨outcome, he⟩ := hwell hexpected
  obtain ⟨outcome', ha⟩ := hwell hactual
  have hread : ∀ view ∈ transcriptRecords expected, serde.ReadsInOrder fromSlice view.value :=
    fun view hview => hserde _ (.inl (mem_transcriptRecords hview))
  have hread' : ∀ view ∈ transcriptRecords actual, serde.ReadsInOrder fromSlice view.value :=
    fun view hview => hserde _ (.inr (mem_transcriptRecords hview))
  have hequal := compareRecords_equal_iff options hread hread'
  have hswapped := compareRecords_equal_iff options hread' hread
  rw [forall₂_transcriptRecords, ← TranscriptV1.equal_iff he ha] at hequal
  rw [forall₂_transcriptRecords, ← TranscriptV1.equal_iff ha he] at hswapped
  obtain ⟨result, hresult, hfinds⟩ := compareRecords_finds options hread hread'
  have hiff : result = .equal ↔ expected.Equal options actual := by
    rw [← hequal, hresult, Except.ok.injEq]
  refine ⟨result, hresult, hiff, ?_, ?_⟩
  · rintro d rfl
    obtain ⟨k, p, hreports⟩ := hfinds
    obtain ⟨view, hview⟩ := NamesFirst.of_reportsAt he.sequence ha.sequence hread hread' hreports
    exact ⟨view, p, hview⟩
  · rw [hiff]
    exact hswapped.trans TranscriptV1.equal_comm

/-! ## Two matches of one resignation -/

/-- A record, its text, and the value of the text in its order. -/
structure KnownValue where
  record : RecordV1
  text : String
  value : JsonValue

/-- The reader of known values. -/
def readKnown (values : List KnownValue) (bytes : List UInt8) : Except String JsonValue :=
  match values.find? (fun v => utf8 v.text = bytes) with
  | some v => .ok v.value
  | none => .error "unknown text"

theorem utf8_injective {text text' : String} (h : utf8 text = utf8 text') : text = text' := by
  have hread := fromUTF8?_utf8 text
  rw [h, fromUTF8?_utf8] at hread
  exact (Option.some.inj hread).symm

theorem readKnown_mem {values : List KnownValue} (hnodup : (values.map (·.text)).Nodup)
    {v : KnownValue} (hmem : v ∈ values) : readKnown values (utf8 v.text) = .ok v.value := by
  unfold readKnown
  induction values with
  | nil => cases hmem
  | cons first values ih =>
      rw [List.map_cons, List.nodup_cons] at hnodup
      rw [List.find?_cons]
      rcases List.mem_cons.mp hmem with rfl | hmem
      · simp
      · have hne : utf8 first.text ≠ utf8 v.text := by
          intro heq
          apply hnodup.1
          rw [utf8_injective heq]
          exact List.mem_map_of_mem hmem
        simp only [hne, decide_false]
        exact ih hnodup.2 hmem

theorem distinct_object {fields : List (String × JsonValue)} :
    (JsonValue.object fields).Distinct ↔
      (fields.map Prod.fst).Nodup ∧ ∀ f ∈ fields, f.2.Distinct := by
  constructor
  · intro h
    cases h with
    | object hkeys hfields => exact ⟨hkeys, hfields⟩
  · rintro ⟨hkeys, hfields⟩
    exact .object hkeys hfields

theorem distinct_array {values : List JsonValue} :
    (JsonValue.array values).Distinct ↔ ∀ v ∈ values, v.Distinct := by
  constructor
  · intro h
    cases h with
    | array hvalues => exact hvalues
  · exact .array

section
variable {b : Bool} {n : ℕ} {text : String} {values : List JsonValue}

theorem intoJson_null : JsonValue.null.intoJson = .null := rfl

theorem intoJson_bool : (JsonValue.bool b).intoJson = .bool b := rfl

theorem intoJson_nat : (nat n).intoJson = nat n := rfl

theorem intoJson_string : (JsonValue.string text).intoJson = .string text := rfl

theorem intoJson_array : (JsonValue.array values).intoJson = .array (values.map intoJson) := by
  rw [intoJson, itemsIntoJson_eq]

end

/-- A map of different names turns into the sorted map of its turned values. -/
theorem intoJson_eq_ofFields {fields : List (String × JsonValue)}
    (h : (fields.map Prod.fst).Nodup) : (JsonValue.object fields).intoJson =
      ofFields (fields.map fun f => (f.1, f.2.intoJson)) := by
  rw [intoJson_object h]
  show JsonValue.object _ = .object (sortKeys _)
  rw [sortKeys_map]

namespace Resignation

def seatValue : JsonValue :=
  .object [("main", .null), ("bench", .array [.null, .null, .null]), ("deck", .array []),
    ("hand", .array []), ("prizes", .array []), ("discard", .array []),
    ("mana", .object [("matter", .nat 0), ("mind", .nat 0), ("spirit", .nat 0)]),
    ("main_losses", .nat 0), ("enchantments", .array [])]

def stateValue (status : JsonValue) : JsonValue :=
  .object [("players", .object [("one", seatValue), ("two", seatValue)]), ("coin", .bool false),
    ("turn", .object [("active_player", .string "one"), ("phase", .string "main"),
      ("window", .null), ("normal_attack_used", .bool false),
      ("normal_retreat_used", .bool false),
      ("spell_played_this_turn", .object [("one", .bool false), ("two", .bool false)])]),
    ("stack", .array []), ("stack_segment_bases", .array []), ("work", .array []),
    ("pending", .null), ("status", status)]

/-- The second record with a required Set. -/
def withSet : KnownValue where
  record := .matchCreated ⟨1, [⟨"core", 1⟩], StateProjectionV1.fromState initial, ⟨playingDigest⟩⟩
  text := "\x7b\"sequence\":1,\"record\":\"match_created\",\"required_sets\":" ++
    "[\x7b\"set\":\"core\",\"revision\":1\x7d],\"initial_state\":" ++ playingText ++
    ",\"state_digest\":\"" ++ playingDigest ++ "\"\x7d"
  value := .object [("sequence", .nat 1), ("record", .string "match_created"),
    ("required_sets", .array [.object [("set", .string "core"), ("revision", .nat 1)]]),
    ("initial_state", stateValue (.object [("kind", .string "playing")])),
    ("state_digest", .string playingDigest)]

/-- The values of `known`, and that one. -/
def values : List KnownValue :=
  (known.records.zip
    [.object [("sequence", .nat 0), ("record", .string "header"),
        ("format", .string "summoners_match"), ("format_version", .nat 1),
        ("metadata", .object [])],
      .object [("sequence", .nat 1), ("record", .string "match_created"),
        ("required_sets", .array []),
        ("initial_state", stateValue (.object [("kind", .string "playing")])),
        ("state_digest", .string playingDigest)],
      .object [("sequence", .nat 2), ("record", .string "action"), ("step", .nat 1),
        ("action", .object [("kind", .string "resign"), ("player", .string "one")])],
      .object [("sequence", .nat 3), ("record", .string "event"), ("step", .nat 1),
        ("index", .nat 0), ("event", .object [("kind", .string "game_ended"),
          ("winner", .string "two"), ("reason", .string "resignation")])],
      .object [("sequence", .nat 4), ("record", .string "step_completed"), ("step", .nat 1),
        ("event_count", .nat 1), ("state_digest", .string endedDigest)],
      .object [("sequence", .nat 5), ("record", .string "final_state"),
        ("final_state", stateValue (.object [("kind", .string "ended"),
          ("outcome", .object [("winner", .string "two"), ("reason", .string "resignation")])])),
        ("state_digest", .string endedDigest)],
      .object [("sequence", .nat 6), ("record", .string "match_completed"),
        ("step_count", .nat 1), ("event_count", .nat 1), ("state_digest", .string endedDigest),
        ("winner", .string "two"), ("reason", .string "resignation")]]).map
      (fun v => ⟨v.1.1, v.1.2, v.2⟩) ++ [withSet]

theorem stateValue_distinct {status : JsonValue} (h : status.Distinct) :
    (stateValue status).Distinct := by
  simp [stateValue, seatValue, distinct_object, distinct_array, Distinct.null, Distinct.bool,
    Distinct.string, nat, Distinct.number, h]

theorem stateValue_intoJson (status : GameStatus) (value : JsonValue)
    (h : value.intoJson = (GameStatusV1.fromCore status).toJson) :
    (stateValue value).intoJson =
      (StateProjectionV1.fromState { initial with status := status }).toJson := by
  simp [stateValue, seatValue, intoJson_eq_ofFields, intoJson_null, intoJson_bool, intoJson_nat,
    intoJson_string, intoJson_array, h]
  rfl

/-- No map of the values has a name twice. -/
theorem values_distinct : ∀ v ∈ values, v.value.Distinct := by
  have hplaying : (stateValue (.object [("kind", .string "playing")])).Distinct :=
    stateValue_distinct (by simp [distinct_object, Distinct.string])
  have hended : (stateValue (.object [("kind", .string "ended"),
      ("outcome", .object [("winner", .string "two"), ("reason", .string "resignation")])])).Distinct :=
    stateValue_distinct (by simp [distinct_object, Distinct.string])
  simp [values, withSet, known, distinct_object, distinct_array, Distinct.string, nat, Distinct.number,
    hplaying, hended]

/-- The values turn into those of the records. -/
theorem values_intoJson : ∀ v ∈ values, v.value.intoJson = v.record.toJson := by
  have hplaying := stateValue_intoJson .playing
    (.object [("kind", .string "playing")]) (by
      simp [intoJson_eq_ofFields, intoJson_string]
      rfl)
  have hended := stateValue_intoJson (.ended ⟨.two, .resignation⟩)
    (.object [("kind", .string "ended"),
      ("outcome", .object [("winner", .string "two"), ("reason", .string "resignation")])]) (by
      simp [intoJson_eq_ofFields, intoJson_string]
      rfl)
  simp only [values, withSet, known, List.zip_cons_cons, List.zip_nil_right, List.map_cons, List.map_nil,
    List.cons_append, List.nil_append, List.forall_mem_cons, List.not_mem_nil, false_imp_iff,
    implies_true, and_true]
  have hempty : ofFields [] = .object [] := by
    simp [ofFields]
  refine ⟨?_, ?_, ?_, ?_, ?_, ?_, ?_, ?_⟩
  all_goals
    simp [intoJson_eq_ofFields, intoJson_nat, intoJson_string, intoJson_array, hplaying, hended,
      hempty]
    rfl

/-- The texts of the values, with the states of `known`. -/
def both : KnownTexts := ⟨values.map fun v => (v.record, v.text), known.states, known.digests⟩

theorem both_records : both.records = known.records ++ [(withSet.record, withSet.text)] := rfl

theorem both_lines : both.Lines where
  nodup := by decide +kernel
  oneLine := by
    rw [both_records]
    exact List.forall_mem_append.mpr ⟨known_lines.oneLine, by decide +kernel⟩
  noReturn := by
    rw [both_records]
    exact List.forall_mem_append.mpr ⟨known_lines.noReturn, by decide +kernel⟩

theorem both_toVec : ∀ v ∈ values, both.serde.toVec v.record = .ok (utf8 v.text) := by
  decide +kernel

theorem both_reads (v : KnownValue) (hv : v ∈ values) :
    both.serde.ReadsInOrder (readKnown values) v.record := by
  have hnodup : (values.map (·.text)).Nodup := both_lines.nodup
  exact ⟨utf8 v.text, v.value, both_toVec v hv, readKnown_mem hnodup hv, values_distinct v hv,
    values_intoJson v hv⟩

theorem values_canonical : ∀ v ∈ values, v.record.Canonical := by
  simp only [values, withSet, known, List.zip_cons_cons, List.zip_nil_right, List.map_cons, List.map_nil,
    List.cons_append, List.nil_append, List.forall_mem_cons, List.not_mem_nil, false_imp_iff,
    implies_true, and_true, RecordV1.Canonical]
  decide +kernel

/-- Lines of known values parse where their records fold. -/
theorem both_parse {vs : List KnownValue} (hvs : ∀ v ∈ vs, v ∈ values)
    (hfold : (foldRecords both.serde.compute (vs.map fun v => ⟨0, v.record⟩)).isOk = true) :
    ∃ bytes t, TranscriptV1.parse both.serde bytes = .ok t ∧ t.records = vs.map (·.record) := by
  have hlines : List.Forall₂ both.serde.ReadsBack (vs.map (·.record)) (vs.map (utf8 ·.text)) := by
    rw [List.forall₂_map_left_iff, List.forall₂_map_right_iff, List.forall₂_same]
    exact fun v hv => KnownTexts.readsBack both_lines _ _ (both_toVec v (hvs v hv))
  obtain ⟨ds, hds, hparse⟩ := parse_written hlines (by
    intro r hr
    obtain ⟨v, hv, rfl⟩ := List.mem_map.mp hr
    exact values_canonical v (hvs v hv))
  cases hok : foldRecords both.serde.compute (vs.map fun v => ⟨0, v.record⟩) with
  | error e =>
      rw [hok] at hfold
      cases hfold
  | ok t =>
      obtain ⟨hrecords, outcome, hwell⟩ := foldRecords_ok_iff.mp hok
      rw [List.map_map] at hrecords
      refine ⟨_, t, hparse.trans ?_, hrecords⟩
      rw [foldRecords_ok_iff]
      exact ⟨hrecords.trans hds.symm, outcome, hwell⟩

end Resignation

/-- The path of the difference, if there is one. -/
def TranscriptComparison.path : TranscriptComparison → Option String
  | .equal => none
  | .different difference => some difference.path

open Resignation in
/-- Two matches that differ in a required Set. -/
theorem comparison_names_first_difference_required_set :
    ∃ expectedBytes actualBytes expected actual d view p,
      TranscriptV1.parse both.serde expectedBytes = .ok expected ∧
      TranscriptV1.parse both.serde actualBytes = .ok actual ∧
      compareParsedTranscripts both.serde (readKnown values) expected actual ⟨false⟩ =
        .ok (.different d) ∧
      d.path = "match_created.required_sets[0]" ∧
      NamesFirst both.serde (readKnown values) ⟨false⟩ expected actual d view p := by
  let vs := values.take 7
  let vs' := values.take 1 ++ values.drop 7 ++ (values.take 7).drop 2
  have hvs : ∀ v ∈ vs, v ∈ values := fun v hv => List.mem_of_mem_take hv
  have hvs' : ∀ v ∈ vs', v ∈ values := by
    intro v hv
    rcases List.mem_append.mp hv with hv | hv
    · rcases List.mem_append.mp hv with hv | hv
      · exact List.mem_of_mem_take hv
      · exact List.mem_of_mem_drop hv
    · exact List.mem_of_mem_take (List.mem_of_mem_drop hv)
  obtain ⟨bytes, expected, hexpected, hrecords⟩ := both_parse hvs (by decide +kernel)
  obtain ⟨bytes', actual, hactual, hrecords'⟩ := both_parse hvs' (by decide +kernel)
  obtain ⟨result, hresult, -, hdifferent, -⟩ :=
    comparison_names_first_difference both.serde (readKnown values) ⟨false⟩ bytes bytes' expected
      actual hexpected hactual (by
        rw [hrecords, hrecords']
        rintro r (hr | hr)
        · obtain ⟨v, hv, rfl⟩ := List.mem_map.mp hr
          exact both_reads v (hvs v hv)
        · obtain ⟨v, hv, rfl⟩ := List.mem_map.mp hr
          exact both_reads v (hvs' v hv))
  have hpath : (compareRecords both.serde (readKnown values) ⟨false⟩
      (labelled 0 0 (vs.map (·.record))) (labelled 0 0 (vs'.map (·.record)))).toOption.map
        TranscriptComparison.path = some (some "match_created.required_sets[0]") := by
    decide +kernel
  rw [← hrecords, ← hrecords', ← transcriptRecords_eq, ← transcriptRecords_eq] at hpath
  change (compareParsedTranscripts _ _ _ _ _).toOption.map _ = _ at hpath
  rw [hresult] at hpath
  cases result with
  | equal => simp [Except.toOption, TranscriptComparison.path] at hpath
  | different d =>
      obtain ⟨view, p, hnames⟩ := hdifferent d rfl
      refine ⟨bytes, bytes', expected, actual, d, view, p, hexpected, hactual, hresult, ?_, hnames⟩
      simpa [Except.toOption, TranscriptComparison.path] using hpath

end Summoners
