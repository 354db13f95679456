import Summoners.Proof.JsonForms

/-! # Comparing records

Two lists of records are compared pairwise in their order, each record as the value its text reads
back as. Where `serde_json` reads back what it writes, the walk gives no error, is `equal` on equal
records only, and otherwise reports the first record that differs and the first path in it.
-/

namespace Summoners
set_option autoImplicit false
open Checked JsonValue

/-! ## Equal records -/

/-- `PartialEq` of two headers, of their metadata where they are compared. -/
structure HeaderV1.Equal (options : ComparisonOptions) (h h' : HeaderV1) : Prop where
  sequence : h.sequence = h'.sequence
  format : h.format = h'.format
  formatVersion : h.formatVersion = h'.formatVersion
  metadata : options.includeHeaderMetadata = true →
    (JsonValue.object h.metadata).eq (.object h'.metadata) = true

/-- `PartialEq` of two records. -/
def RecordV1.Equal (options : ComparisonOptions) : RecordV1 → RecordV1 → Prop
  | .header h, .header h' => h.Equal options h'
  | record, record' => record = record'

/-! ## The value of a record -/

/-- The JSON of a record as it is compared. -/
def RecordV1.compared (options : ComparisonOptions) : RecordV1 → JsonValue
  | .header h =>
      if options.includeHeaderMetadata then h.toJson else h.toJson.removeMappingField "metadata"
  | record => record.toJson

theorem removeMappingField_ofFields {fields : List (String × JsonValue)} {name : String}
    (h : KeysDistinct fields) : (ofFields fields).removeMappingField name =
      ofFields (fields.filter (fun f => f.1 ≠ name)) := by
  show JsonValue.object ((sortKeys fields).filter _) = .object (sortKeys _)
  rw [filter_sortKeys h]

/-- A header without its metadata. -/
theorem compared_header {options : ComparisonOptions} {h : HeaderV1}
    (hoptions : options.includeHeaderMetadata = false) :
    (RecordV1.header h).compared options =
      .ofFields [("sequence", .nat h.sequence), ("record", .string "header"),
        ("format", .string h.format), ("format_version", .nat h.formatVersion.toNat)] := by
  rw [RecordV1.compared, hoptions, if_neg Bool.false_ne_true, HeaderV1.toJson,
    removeMappingField_ofFields (by simp [KeysDistinct])]
  simp

theorem get_record_compared (options : ComparisonOptions) (record : RecordV1) :
    (record.compared options).get "record" = some (.string (recordName record)) := by
  cases record
  case header h =>
      cases hoptions : options.includeHeaderMetadata with
      | true =>
          rw [RecordV1.compared, hoptions, if_pos rfl]
          exact get_ofFields (by simp [recordName]) (by simp [recordName])
      | false =>
          rw [compared_header hoptions]
          exact get_ofFields (by simp [recordName]) (by simp [recordName])
  all_goals exact get_ofFields (by simp [recordName]) (by simp [recordName])

theorem HeaderV1.compared_eq_iff {options : ComparisonOptions} {h h' : HeaderV1} :
    ((RecordV1.header h).compared options).eq ((RecordV1.header h').compared options) = true ↔
      h.Equal options h' := by
  have hiff : h.Equal options h' ↔ h.sequence = h'.sequence ∧ h.format = h'.format ∧
      h.formatVersion = h'.formatVersion ∧ (options.includeHeaderMetadata = true →
        (JsonValue.object h.metadata).eq (.object h'.metadata) = true) :=
    ⟨fun e => ⟨e.sequence, e.format, e.formatVersion, e.metadata⟩,
      fun e => ⟨e.1, e.2.1, e.2.2.1, e.2.2.2⟩⟩
  cases hoptions : options.includeHeaderMetadata with
  | true =>
      rw [hiff, hoptions]
      simp [RecordV1.compared, hoptions, toJson, ofFields_eq_iff, UInt32.toNat_inj]
  | false =>
      rw [hiff, hoptions, compared_header hoptions, compared_header hoptions]
      simp [ofFields_eq_iff, UInt32.toNat_inj]

theorem recordName_eq_of_equal {options : ComparisonOptions} {r r' : RecordV1}
    (h : r.Equal options r') : recordName r = recordName r' := by
  cases r
  case header => cases r' <;> first | rfl | cases h
  all_goals
    cases h
    rfl

/-- Records are compared equal if and only if they are. -/
theorem RecordV1.compared_eq_iff {options : ComparisonOptions} {r r' : RecordV1} :
    (r.compared options).eq (r'.compared options) = true ↔ r.Equal options r' := by
  by_cases hname : recordName r = recordName r'
  · cases r <;> cases r' <;> simp [recordName] at hname
    case header.header => exact HeaderV1.compared_eq_iff
    case matchCreated.matchCreated v v' => simp [compared, toJson, Equal, MatchCreatedV1.tells v v']
    case action.action v v' => simp [compared, toJson, Equal, ActionRecordV1.tells v v']
    case event.event v v' => simp [compared, toJson, Equal, EventRecordV1.tells v v']
    case stepCompleted.stepCompleted v v' =>
        simp [compared, toJson, Equal, StepCompletedV1.tells v v']
    case stepRejected.stepRejected v v' => simp [compared, toJson, Equal, StepRejectedV1.tells v v']
    case finalState.finalState v v' => simp [compared, toJson, Equal, FinalStateV1.tells v v']
    case matchCompleted.matchCompleted v v' =>
        simp [compared, toJson, Equal, MatchCompletedV1.tells v v']
  · constructor
    · intro h
      have hget := get_eq_of_eq h (get_record_compared options r) (get_record_compared options r')
      exact absurd (string_eq.mp hget) hname
    · intro h
      exact absurd (recordName_eq_of_equal h) hname

/-! ## Reading a record -/

section
variable {serde : Serde} {fromSlice : List UInt8 → Except String JsonValue}
  {options : ComparisonOptions}

/-- What `serde_json` documents of a record: the text written for it is read back, as a value of
which no map has a name twice and which turns into the record's `Value`. -/
def Serde.ReadsInOrder (serde : Serde) (fromSlice : List UInt8 → Except String JsonValue)
    (record : RecordV1) : Prop :=
  ∃ bytes value, serde.toVec record = .ok bytes ∧ fromSlice bytes = .ok value ∧ value.Distinct ∧
    value.intoJson = record.toJson

theorem JsonValue.Distinct.removeMappingField {v : JsonValue} (h : v.Distinct) (name : String) :
    (v.removeMappingField name).Distinct := by
  cases h with
  | object hkeys hfields =>
      exact .object (hkeys.filter _) fun f hf => hfields f (List.mem_of_mem_filter hf)
  | null => exact .null
  | bool b => exact .bool b
  | number n => exact .number n
  | string text => exact .string text
  | array hvalues => exact .array hvalues

/-- A field can be removed before or after. -/
theorem intoJson_removeMappingField {v : JsonValue} (h : v.Distinct) (name : String) :
    (v.removeMappingField name).intoJson = v.intoJson.removeMappingField name := by
  cases h with
  | @object fields hkeys hfields =>
      rw [intoJson_object hkeys]
      show (JsonValue.object (fields.filter _)).intoJson = .object (List.filter _ _)
      rw [intoJson_object (hkeys.filter _), ← filter_sortKeys hkeys, List.filter_map]
      rfl
  | _ => rfl

/-- A record that is read back is read as it is compared. -/
theorem RecordView.read_ok (options : ComparisonOptions) {view : RecordView} (h : serde.ReadsInOrder fromSlice view.value) :
    ∃ value, view.read serde fromSlice options = .ok value ∧ value.Distinct ∧
      value.intoJson = view.value.compared options := by
  obtain ⟨bytes, value, hbytes, hvalue, hdistinct, hjson⟩ := h
  have hordered : orderedValue serde fromSlice view.value = .ok value := by
    rw [orderedValue, hbytes]
    show (fromSlice bytes).mapError _ = _
    rw [hvalue]
    rfl
  unfold RecordView.read
  rw [hordered]
  cases hview : view.value
  case header h =>
    rw [hview] at hjson
    cases hoptions : options.includeHeaderMetadata with
    | true =>
        refine ⟨value, rfl, hdistinct, ?_⟩
        rw [hjson, RecordV1.compared, hoptions, if_pos rfl]
        rfl
    | false =>
        refine ⟨value.removeMappingField "metadata", rfl, hdistinct.removeMappingField _, ?_⟩
        rw [intoJson_removeMappingField hdistinct, hjson, RecordV1.compared, hoptions,
          if_neg Bool.false_ne_true]
        rfl
  all_goals
    rw [hview] at hjson
    exact ⟨value, rfl, hdistinct, hjson⟩

/-- Two records that are read back have equal values if and only if they are equal. -/
theorem same_iff_equal {view view' : RecordView} {value value' : JsonValue}
    (h : value.intoJson = view.value.compared options)
    (h' : value'.intoJson = view'.value.compared options) :
    value.Same value' ↔ view.value.Equal options view'.value := by
  unfold JsonValue.Same
  rw [h, h']
  exact RecordV1.compared_eq_iff

end

/-! ## The walk over the records -/

section
variable (serde : Serde) (fromSlice : List UInt8 → Except String JsonValue)
  (options : ComparisonOptions)

/-- What is compared at a place in the records. -/
def valueAt (views : List RecordView) (k : ℕ) : Option JsonValue :=
  views[k]?.bind fun view => (view.read serde fromSlice options).toOption

/-- A report of the first path at which two lists of records differ, in their `k`th records; where
only one of them has such a record, it stands for both. -/
structure ReportsAt (expected actual : List RecordView) (d : TranscriptDifference) (k : ℕ)
    (p : List Segment) : Prop where
  before : ∀ j < k, Agree (valueAt serde fromSlice options expected j)
    (valueAt serde fromSlice options actual j)
  first : FirstAt (valueAt serde fromSlice options expected k)
    (valueAt serde fromSlice options actual k) p
  reported : ∃ e a, expected[k]?.or actual[k]? = some e ∧ actual[k]?.or expected[k]? = some a ∧
    d = recordDifference e a ⟨pathText e.path p,
      (at? p (valueAt serde fromSlice options expected k)).map intoJson,
      (at? p (valueAt serde fromSlice options actual k)).map intoJson⟩

/-- What the walk over two lists of records finds. -/
def RecordsFind (expected actual : List RecordView) : TranscriptComparison → Prop
  | .equal => List.Forall₂ (fun e a => e.value.Equal options a.value) expected actual
  | .different d => ∃ k p, ReportsAt serde fromSlice options expected actual d k p

end

section
variable {serde : Serde} {fromSlice : List UInt8 → Except String JsonValue}
  {options : ComparisonOptions} {expected actual : List RecordView}

@[simp] theorem valueAt_succ {view : RecordView} {views : List RecordView} {k : ℕ} :
    valueAt serde fromSlice options (view :: views) (k + 1) =
      valueAt serde fromSlice options views k := rfl

theorem valueAt_zero {view : RecordView} {views : List RecordView} {value : JsonValue}
    (h : view.read serde fromSlice options = .ok value) :
    valueAt serde fromSlice options (view :: views) 0 = some value := by
  show (view.read serde fromSlice options).toOption = some value
  rw [h]
  rfl

/-- One record that is equal. -/
theorem ReportsAt.behind {e a : RecordView} {d : TranscriptDifference} {k : ℕ} {p : List Segment}
    (hfirst : Agree (valueAt serde fromSlice options (e :: expected) 0)
      (valueAt serde fromSlice options (a :: actual) 0))
    (h : ReportsAt serde fromSlice options expected actual d k p) :
    ReportsAt serde fromSlice options (e :: expected) (a :: actual) d (k + 1) p := by
  refine ⟨?_, h.first, h.reported⟩
  intro j hj
  cases j with
  | zero => exact hfirst
  | succ j => exact h.before j (by omega)

/-- Over records that are read back the comparison gives no error. -/
theorem compareRecords_finds (options : ComparisonOptions)
    (hexpected : ∀ view ∈ expected, serde.ReadsInOrder fromSlice view.value)
    (hactual : ∀ view ∈ actual, serde.ReadsInOrder fromSlice view.value) :
    ∃ result, compareRecords serde fromSlice options expected actual = .ok result ∧
      RecordsFind serde fromSlice options expected actual result := by
  induction expected generalizing actual with
  | nil =>
      cases actual with
      | nil => exact ⟨.equal, rfl, .nil⟩
      | cons a actual =>
          obtain ⟨value, hread, -, -⟩ :=
            RecordView.read_ok options (hactual a List.mem_cons_self)
          refine ⟨.different (recordDifference a a ⟨a.path, none, some value.intoJson⟩),
            by rw [compareRecords, hread]; rfl, 0, [], ?_, ?_, a, a, rfl, rfl, ?_⟩
          · exact fun j hj => absurd hj (Nat.not_lt_zero j)
          · rw [valueAt_zero hread]
            trivial
          · rw [valueAt_zero hread]
            rfl
  | cons e expected ih =>
      rw [List.forall_mem_cons] at hexpected
      obtain ⟨value, hread, hdistinct, hjson⟩ :=
        RecordView.read_ok options hexpected.1
      cases actual with
      | nil =>
          refine ⟨.different (recordDifference e e ⟨e.path, some value.intoJson, none⟩),
            by rw [compareRecords, hread]; rfl, 0, [], ?_, ?_, e, e, rfl, rfl, ?_⟩
          · exact fun j hj => absurd hj (Nat.not_lt_zero j)
          · rw [valueAt_zero hread]
            trivial
          · rw [valueAt_zero hread]
            rfl
      | cons a actual =>
          rw [List.forall_mem_cons] at hactual
          obtain ⟨value', hread', hdistinct', hjson'⟩ :=
            RecordView.read_ok options hactual.1
          obtain ⟨result, hresult, hfinds⟩ := ih hexpected.2 hactual.2
          have hwalk := differenceFrom_finds value (some value') e.path hdistinct
            (fun v hv => by cases hv; exact hdistinct')
          have hcompare : ∀ found, differenceFrom value (some value') e.path = found →
              compareRecords serde fromSlice options (e :: expected) (a :: actual) =
                found.elim (compareRecords serde fromSlice options expected actual)
                  (fun difference => .ok (.different (recordDifference e a difference))) := by
            intro found hfound
            rw [compareRecords, hread, hread']
            change firstValueDifference (some value) (some value') e.path = found at hfound
            simp only [bind, Except.bind, hfound]
            cases found <;> rfl
          rw [hcompare _ rfl]
          cases hdifference : differenceFrom value (some value') e.path with
          | some difference =>
              rw [hdifference] at hwalk
              obtain ⟨p, hp⟩ := hwalk
              refine ⟨_, rfl, 0, p, ?_, ?_, e, a, rfl, rfl, ?_⟩
              · exact fun j hj => absurd hj (Nat.not_lt_zero j)
              · rw [valueAt_zero hread, valueAt_zero hread']
                exact hp.first
              · rw [valueAt_zero hread, valueAt_zero hread', ← hp.path, ← hp.expected, ← hp.actual]
          | none =>
              rw [hdifference] at hwalk
              refine ⟨result, hresult, ?_⟩
              have hsame : value.Same value' := by
                cases hwalk with
                | some h => exact h
              cases result with
              | equal => exact .cons ((same_iff_equal hjson hjson').mp hsame) hfinds
              | different d =>
                  obtain ⟨k, p, hreports⟩ := hfinds
                  refine ⟨k + 1, p, hreports.behind ?_⟩
                  rw [valueAt_zero hread, valueAt_zero hread']
                  exact hwalk

/-- Records that are read back and equal have equal values at every place. -/
theorem valueAt_agree (hexpected : ∀ view ∈ expected, serde.ReadsInOrder fromSlice view.value)
    (hactual : ∀ view ∈ actual, serde.ReadsInOrder fromSlice view.value)
    (h : List.Forall₂ (fun e a => e.value.Equal options a.value) expected actual) (k : ℕ) :
    Agree (valueAt serde fromSlice options expected k)
      (valueAt serde fromSlice options actual k) := by
  induction h generalizing k with
  | nil => exact .none
  | @cons e a expected actual hequal _ ih =>
      rw [List.forall_mem_cons] at hexpected hactual
      cases k with
      | zero =>
          obtain ⟨value, hread, -, hjson⟩ := RecordView.read_ok options hexpected.1
          obtain ⟨value', hread', -, hjson'⟩ := RecordView.read_ok options hactual.1
          rw [valueAt_zero hread, valueAt_zero hread']
          exact .some ((same_iff_equal hjson hjson').mpr hequal)
      | succ k => exact ih hexpected.2 hactual.2 k

theorem valueAt_distinct (h : ∀ view ∈ expected, serde.ReadsInOrder fromSlice view.value) (k : ℕ) :
    ∀ v ∈ valueAt serde fromSlice options expected k, v.Distinct := by
  intro v hv
  obtain ⟨view, hview, hvalue⟩ := Option.bind_eq_some_iff.mp hv
  obtain ⟨value, hread, hdistinct, -⟩ :=
    RecordView.read_ok options (h view (List.mem_of_getElem? hview))
  rw [hread] at hvalue
  cases hvalue
  exact hdistinct

/-- The comparison is `equal` on equal records only. -/
theorem compareRecords_equal_iff (options : ComparisonOptions)
    (hexpected : ∀ view ∈ expected, serde.ReadsInOrder fromSlice view.value)
    (hactual : ∀ view ∈ actual, serde.ReadsInOrder fromSlice view.value) :
    compareRecords serde fromSlice options expected actual = .ok .equal ↔
      List.Forall₂ (fun e a => e.value.Equal options a.value) expected actual := by
  obtain ⟨result, hresult, hfinds⟩ := compareRecords_finds options hexpected hactual
  rw [hresult]
  cases result with
  | equal => exact iff_of_true rfl hfinds
  | different d =>
      refine iff_of_false (by simp) fun hequal => ?_
      obtain ⟨k, p, hreports⟩ := hfinds
      exact not_firstAt_of_agree (valueAt_distinct hexpected k) (valueAt_distinct hactual k)
        (valueAt_agree hexpected hactual hequal k) hreports.first

end

end Summoners
