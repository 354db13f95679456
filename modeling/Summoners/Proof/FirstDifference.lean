import Mathlib.Data.String.Basic
import Summoners.Checked.Keyed
import Summoners.MatchLog.Compare

/-! # The first difference of two values

Where a walk over two JSON values stops. `FirstAt` says of a path that the values differ there and
that everything earlier on the way down is equal: the indexes before, or the names before in the order
of the expected fields with the names of the actual side alone behind them. The walk of
`first_value_difference` reports such a path, and nothing only for equal values.
-/

namespace Summoners
set_option autoImplicit false
open Checked

/-! ## Equal values -/

namespace JsonValue
variable {values values' : List JsonValue} {fields fields' : List (String × JsonValue)}
  {v v' : JsonValue}

theorem eqItems_iff : eqItems values values' = true ↔ List.Forall₂ (fun a b => a.eq b = true) values
    values' := by
  induction values generalizing values' with
  | nil => cases values' <;> simp [eqItems]
  | cons value values ih => cases values' <;> simp [eqItems, ih]

theorem eqFields_iff :
    eqFields fields fields' = true ↔ EntryWise (fun a b => a.eq b = true) fields fields' := by
  induction fields generalizing fields' with
  | nil => cases fields' <;> simp [eqFields]
  | cons field fields ih =>
      obtain ⟨name, value⟩ := field
      cases fields' with
      | nil => simp [eqFields]
      | cons field' fields' => simp [eqFields, ih]

/-- No map has two entries of one name, at any depth. -/
inductive Distinct : JsonValue → Prop
  | null : Distinct .null
  | bool (b : Bool) : Distinct (.bool b)
  | number (n : JsonNumber) : Distinct (.number n)
  | string (text : String) : Distinct (.string text)
  | array {values : List JsonValue} (h : ∀ v ∈ values, Distinct v) : Distinct (.array values)
  | object {fields : List (String × JsonValue)} (hkeys : KeysDistinct fields)
      (h : ∀ f ∈ fields, Distinct f.2) : Distinct (.object fields)

theorem itemsIntoJson_eq : itemsIntoJson values = values.map intoJson := by
  induction values with
  | nil => rfl
  | cons value values ih => rw [itemsIntoJson, ih, List.map_cons]

theorem fieldsIntoJson_eq : fieldsIntoJson fields = fields.map fun f => (f.1, f.2.intoJson) := by
  induction fields with
  | nil => rfl
  | cons field fields ih => rw [fieldsIntoJson, ih, List.map_cons]

theorem lastOfEach_of_distinct (h : KeysDistinct fields) : lastOfEach fields = fields := by
  induction fields with
  | nil => rfl
  | cons field fields ih =>
      cases fields with
      | nil => rfl
      | cons next fields =>
          have hne : field.1 ≠ next.1 := by
            intro heq
            apply (List.nodup_cons.mp h).1
            rw [heq]
            exact List.mem_cons_self
          rw [lastOfEach, if_neg hne, ih h.of_cons]

theorem keysDistinct_map {f : JsonValue → JsonValue} (h : KeysDistinct fields) :
    KeysDistinct (fields.map fun e => (e.1, f e.2)) := by
  unfold KeysDistinct at *
  rwa [List.map_map]

/-- The entries of a map of different names are sorted. -/
theorem intoJson_object (h : KeysDistinct fields) :
    (JsonValue.object fields).intoJson =
      .object ((sortKeys fields).map fun f => (f.1, f.2.intoJson)) := by
  rw [intoJson, fieldsIntoJson_eq, collectMap]
  show JsonValue.object (lastOfEach (sortKeys _)) = _
  rw [lastOfEach_of_distinct (keysDistinct_map h).sortKeys, sortKeys_map]

/-- Equal as the values of `serde_json` they turn into. -/
def Same (v v' : JsonValue) : Prop := v.intoJson.eq v'.intoJson = true

theorem same_array : Same (.array values) (.array values') ↔ List.Forall₂ Same values values' := by
  unfold Same
  rw [intoJson, intoJson, eq, eqItems_iff, itemsIntoJson_eq, itemsIntoJson_eq,
    List.forall₂_map_left_iff, List.forall₂_map_right_iff]

theorem same_object (h : KeysDistinct fields) (h' : KeysDistinct fields') :
    Same (.object fields) (.object fields') ↔ SameEntries Same fields fields' := by
  unfold Same
  rw [intoJson_object h, intoJson_object h', eq, eqFields_iff, entryWise_map]
  exact entryWise_sortKeys_iff h h'

/-! ## Lookups -/

theorem lookup_eq_some (h : KeysDistinct fields) {name : String} :
    lookup name fields = some v ↔ (name, v) ∈ fields := by
  unfold lookup
  rw [Option.map_eq_some_iff]
  constructor
  · rintro ⟨f, hfind, rfl⟩
    have hname : f.1 = name := by simpa using List.find?_some hfind
    rw [← hname]
    exact List.mem_of_find?_eq_some hfind
  · intro hmem
    have hsome : (fields.find? (fun f => f.1 = name)).isSome := by
      rw [List.find?_isSome]
      exact ⟨(name, v), hmem, by simp⟩
    obtain ⟨f, hf⟩ := Option.isSome_iff_exists.mp hsome
    have hname : f.1 = name := by simpa using List.find?_some hf
    refine ⟨f, hf, ?_⟩
    have hmem' : (name, f.2) ∈ fields := by
      rw [← hname]
      exact List.mem_of_find?_eq_some hf
    exact h.unique hmem' hmem

theorem lookup_eq_none {name : String} :
    lookup name fields = none ↔ ∀ f ∈ fields, f.1 ≠ name := by
  unfold lookup
  rw [Option.map_eq_none_iff, List.find?_eq_none]
  simp

end JsonValue

/-! ## Paths -/

inductive Segment
  | index (i : ℕ)
  | field (name : String)
  deriving DecidableEq, Repr

namespace JsonValue

/-- What stands one step below a value. -/
def child : Segment → JsonValue → Option JsonValue
  | .index i, .array values => values[i]?
  | .field name, .object fields => lookup name fields
  | _, _ => none

/-- What stands at the end of a path, if the path is there. -/
def at? : List Segment → Option JsonValue → Option JsonValue
  | [], v => v
  | s :: p, v => at? p (v.bind (child s))

end JsonValue

def segmentPath (base : String) : Segment → String
  | .index i => itemPath base i
  | .field name => joinPath base name

/-- The text of a path below `base`. -/
def pathText (base : String) : List Segment → String
  | [] => base
  | s :: p => pathText (segmentPath base s) p

/-! ## What is first -/

/-- Two sequences, or two mappings. -/
inductive Alike : JsonValue → JsonValue → Prop
  | arrays (values values' : List JsonValue) : Alike (.array values) (.array values')
  | objects (fields fields' : List (String × JsonValue)) : Alike (.object fields) (.object fields')

/-- The names of the expected fields in their order, and then those of the actual side alone. -/
def fieldOrder (expected actual : List (String × JsonValue)) : List String :=
  expected.map Prod.fst ++
    (actual.map Prod.fst).filter (fun name => name ∉ expected.map Prod.fst)

/-- One step stands before another one in two values that are alike. -/
inductive Earlier : JsonValue → JsonValue → Segment → Segment → Prop
  | index {values values' : List JsonValue} {i j : ℕ} (h : i < j) :
      Earlier (.array values) (.array values') (.index i) (.index j)
  | field {fields fields' : List (String × JsonValue)} {name name' : String}
      {before after : List String}
      (horder : fieldOrder fields fields' = before ++ name' :: after) (h : name ∈ before) :
      Earlier (.object fields) (.object fields') (.field name) (.field name')

/-- Both sides have equal values, or neither has one. -/
abbrev Agree : Option JsonValue → Option JsonValue → Prop := Option.Rel JsonValue.Same

/-- The difference is here and not further down. -/
def Clash : Option JsonValue → Option JsonValue → Prop
  | none, none => False
  | some expected, some actual => ¬ Alike expected actual ∧ ¬ expected.Same actual
  | _, _ => True

/-- The values differ at the end of the path, and everything before it is equal. -/
def FirstAt : Option JsonValue → Option JsonValue → List Segment → Prop
  | expected, actual, [] => Clash expected actual
  | some expected, some actual, s :: p => Alike expected actual ∧
      (∀ s', Earlier expected actual s' s → Agree (expected.child s') (actual.child s')) ∧
      FirstAt (expected.child s) (actual.child s) p
  | _, _, _ :: _ => False

/-- A report of the first difference of two values that stand at `base`. -/
structure Reports (expected actual : Option JsonValue) (base : String) (d : ValueDifference)
    (p : List Segment) : Prop where
  first : FirstAt expected actual p
  path : d.path = pathText base p
  expected : d.expected = (JsonValue.at? p expected).map JsonValue.intoJson
  actual : d.actual = (JsonValue.at? p actual).map JsonValue.intoJson

theorem Reports.here {expected actual : Option JsonValue} {base : String} (h : Clash expected actual) :
    Reports expected actual base
      ⟨base, expected.map JsonValue.intoJson, actual.map JsonValue.intoJson⟩ [] :=
  ⟨h, rfl, rfl, rfl⟩

/-- One step down. -/
theorem Reports.below {expected actual : JsonValue} {base : String} {d : ValueDifference}
    {s : Segment} {p : List Segment} (halike : Alike expected actual)
    (hbefore : ∀ s', Earlier expected actual s' s → Agree (expected.child s') (actual.child s'))
    (h : Reports (expected.child s) (actual.child s) (segmentPath base s) d p) :
    Reports (some expected) (some actual) base d (s :: p) :=
  ⟨⟨halike, hbefore, h.first⟩, h.path, h.expected, h.actual⟩

/-! ## The walk -/

section
variable {base : String} {values values' : List JsonValue} {fields fields' : List (String × JsonValue)}

/-- What the walk over two values finds. -/
def WalkFinds (expected actual : Option JsonValue) (base : String) :
    Option ValueDifference → Prop
  | none => Agree expected actual
  | some d => ∃ p, Reports expected actual base d p

/-- A value that the one side alone has, or two that are not alike. -/
theorem finds_here (expected actual : Option JsonValue) (h : Clash expected actual) :
    WalkFinds expected actual base
      (some ⟨base, expected.map JsonValue.intoJson, actual.map JsonValue.intoJson⟩) :=
  ⟨[], .here h⟩

/-- The walk over the items from `index` on. -/
def ItemFinds (base : String) (index : ℕ) (values values' : List JsonValue) :
    Option ValueDifference → Prop
  | none => List.Forall₂ JsonValue.Same values values'
  | some d => ∃ i p, (∀ j < i, Agree values[j]? values'[j]?) ∧
      Reports values[i]? values'[i]? (itemPath base (index + i)) d p

/-- The walk over the expected fields. -/
def FieldFinds (base : String) (fields' fields : List (String × JsonValue)) :
    Option ValueDifference → Prop
  | none => ∀ f ∈ fields, Agree (some f.2) (JsonValue.lookup f.1 fields')
  | some d => ∃ before name value after p, fields = before ++ (name, value) :: after ∧
      (∀ f ∈ before, Agree (some f.2) (JsonValue.lookup f.1 fields')) ∧
      Reports (some value) (JsonValue.lookup name fields') (joinPath base name) d p

theorem ItemFinds.cons {index : ℕ} {value : JsonValue} {first rest : Option ValueDifference}
    (hfirst : WalkFinds (some value) values'.head? (itemPath base index) first)
    (hrest : ItemFinds base (index + 1) values values'.tail rest) :
    ItemFinds base index (value :: values) values' (first.or rest) := by
  cases first with
  | some d =>
      obtain ⟨p, hp⟩ := hfirst
      refine ⟨0, p, fun j hj => absurd hj (Nat.not_lt_zero j), ?_⟩
      rw [List.head?_eq_getElem?] at hp
      exact hp
  | none =>
      cases values' with
      | nil => cases hfirst
      | cons value' values' =>
          have hsame : value.Same value' := by
            cases hfirst with
            | some h => exact h
          cases rest with
          | none => exact .cons hsame hrest
          | some d =>
              obtain ⟨i, p, hbefore, hp⟩ := hrest
              refine ⟨i + 1, p, ?_, ?_⟩
              · intro j hj
                cases j with
                | zero => exact .some hsame
                | succ j => exact hbefore j (by omega)
              · rw [show index + (i + 1) = index + 1 + i by omega]
                exact hp

theorem FieldFinds.cons {name : String} {value : JsonValue} {first rest : Option ValueDifference}
    (hfirst : WalkFinds (some value) (JsonValue.lookup name fields') (joinPath base name) first)
    (hrest : FieldFinds base fields' fields rest) :
    FieldFinds base fields' ((name, value) :: fields) (first.or rest) := by
  cases first with
  | some d =>
      obtain ⟨p, hp⟩ := hfirst
      exact ⟨[], name, value, fields, p, rfl, by simp, hp⟩
  | none =>
      cases rest with
      | none => exact List.forall_mem_cons.mpr ⟨hfirst, hrest⟩
      | some d =>
          obtain ⟨before, name', value', after, p, rfl, hbefore, hp⟩ := hrest
          exact ⟨(name, value) :: before, name', value', after, p, rfl,
            List.forall_mem_cons.mpr ⟨hfirst, hbefore⟩, hp⟩

/-- The items of two sequences. -/
theorem ItemFinds.finds {d : Option ValueDifference}
    (h : ItemFinds base 0 values values' d) :
    WalkFinds (some (.array values)) (some (.array values')) base d := by
  cases d with
  | none => exact .some (JsonValue.same_array.mpr h)
  | some d =>
      obtain ⟨i, p, hbefore, hp⟩ := h
      rw [Nat.zero_add] at hp
      refine ⟨.index i :: p, .below (.arrays _ _) ?_ hp⟩
      intro s' hs'
      cases hs' with
      | index hlt => exact hbefore _ hlt

/-- The names before one that stands once. -/
theorem names_before {names names' before after : List String} {name : String}
    (h : names ++ name :: names' = before ++ name :: after) (hbefore : name ∉ names)
    (hafter : name ∉ names') : before = names :=
  ((List.append_cons_inj_of_notMem hbefore hafter).mp h).1.symm

theorem all_ne_iff {name : String} :
    fields.all (fun e => e.1 ≠ name) = true ↔ name ∉ fields.map Prod.fst := by
  simp only [List.all_eq_true, decide_eq_true_eq, List.mem_map, not_exists, not_and]

/-- A field of the expected mapping stands behind the expected fields before it. -/
theorem earlier_expected {before after : List (String × JsonValue)} {name : String}
    {value : JsonValue} {s : Segment} (hkeys : KeysDistinct (before ++ (name, value) :: after))
    (h : Earlier (.object (before ++ (name, value) :: after)) (.object fields') s (.field name)) :
    ∃ f ∈ before, s = .field f.1 := by
  have hnodup := hkeys
  rw [KeysDistinct, List.map_append, List.map_cons, List.nodup_middle, List.nodup_cons,
    List.mem_append, not_or] at hnodup
  obtain ⟨⟨hbefore, hafter⟩, -⟩ := hnodup
  cases h with
  | @field _ _ name' _ names names' horder hmem =>
      rw [fieldOrder, List.map_append, List.map_cons, List.append_assoc, List.cons_append] at horder
      rw [names_before horder hbefore ?_, List.mem_map] at hmem
      · obtain ⟨f, hf, rfl⟩ := hmem
        exact ⟨f, hf, rfl⟩
      · simp [hafter]

/-- The first field of the actual side alone stands behind all expected fields. -/
theorem earlier_actual {name : String} {value : JsonValue} {s : Segment}
    (hkeys' : KeysDistinct fields')
    (hfind : fields'.find? (fun f => fields.all (fun e => e.1 ≠ f.1)) = some (name, value))
    (h : Earlier (.object fields) (.object fields') s (.field name)) :
    ∃ f ∈ fields, s = .field f.1 := by
  obtain ⟨hnew, before, after, rfl, hbefore⟩ := List.find?_eq_some_iff_append.mp hfind
  have hname : name ∉ fields.map Prod.fst := all_ne_iff.mp hnew
  have hknown : ∀ n ∈ before.map Prod.fst, n ∈ fields.map Prod.fst := by
    intro n hn
    obtain ⟨f, hf, rfl⟩ := List.mem_map.mp hn
    have hold := hbefore f hf
    simpa using hold
  have hextra : (before.map Prod.fst).filter (fun n => n ∉ fields.map Prod.fst) = [] := by
    rw [List.filter_eq_nil_iff]
    intro n hn
    simpa using hknown n hn
  rw [KeysDistinct, List.map_append, List.map_cons, List.nodup_middle, List.nodup_cons,
    List.mem_append, not_or] at hkeys'
  cases h with
  | @field _ _ name' _ names names' horder hmem =>
      rw [fieldOrder, List.map_append, List.map_cons, List.filter_append, hextra, List.nil_append,
        List.filter_cons_of_pos (by simpa using hname)] at horder
      rw [names_before horder hname ?_, List.mem_map] at hmem
      · obtain ⟨f, hf, rfl⟩ := hmem
        exact ⟨f, hf, rfl⟩
      · intro hmem
        exact hkeys'.1.2 (List.mem_of_mem_filter hmem)

/-- The fields of two mappings. -/
theorem FieldFinds.finds {first : Option ValueDifference} (hkeys : KeysDistinct fields)
    (hkeys' : KeysDistinct fields') (h : FieldFinds base fields' fields first) :
    WalkFinds (some (.object fields)) (some (.object fields')) base
      (first.or ((fields'.find? (fun f => fields.all (fun e => e.1 ≠ f.1))).map
        fun f => ⟨joinPath base f.1, none, some f.2.intoJson⟩)) := by
  have hchild : ∀ {fs : List (String × JsonValue)} {f : String × JsonValue}, KeysDistinct fs →
      f ∈ fs → JsonValue.lookup f.1 fs = some f.2 :=
    fun hfs hmem => (JsonValue.lookup_eq_some hfs).mpr hmem
  cases first with
  | some d =>
      obtain ⟨before, name, value, after, p, rfl, hbefore, hp⟩ := h
      have hvalue := hchild hkeys (List.mem_append_right before (List.mem_cons_self (a := (name, value))))
      refine ⟨.field name :: p, .below (.objects _ _) ?_ ?_⟩
      · intro s' hs'
        obtain ⟨f, hf, rfl⟩ := earlier_expected hkeys hs'
        show Agree (JsonValue.lookup _ _) (JsonValue.lookup _ _)
        rw [hchild hkeys (List.mem_append_left _ hf)]
        exact hbefore f hf
      · show Reports (JsonValue.lookup _ _) (JsonValue.lookup _ _) _ d p
        rw [hvalue]
        exact hp
  | none =>
      cases hfind : fields'.find? (fun f => fields.all (fun e => e.1 ≠ f.1)) with
      | some f =>
          obtain ⟨name, value⟩ := f
          have hnew : name ∉ fields.map Prod.fst := by
            have hnew := List.find?_some hfind
            exact all_ne_iff.mp hnew
          refine ⟨[.field name], .below (.objects _ _) ?_ ?_⟩
          · intro s' hs'
            obtain ⟨f, hf, rfl⟩ := earlier_actual hkeys' hfind hs'
            show Agree (JsonValue.lookup _ _) (JsonValue.lookup _ _)
            rw [hchild hkeys hf]
            exact h f hf
          · show Reports (JsonValue.lookup _ _) (JsonValue.lookup _ _) _ _ []
            rw [hchild hkeys' (List.mem_of_find?_eq_some hfind), JsonValue.lookup_eq_none.mpr ?_]
            · exact .here trivial
            · intro f hf heq
              exact hnew (heq ▸ List.mem_map_of_mem hf)
      | none =>
          refine .some ((JsonValue.same_object hkeys hkeys').mpr ⟨?_, ?_⟩)
          · intro key x hx
            have hagree := h _ hx
            simp only at hagree
            cases hlookup : JsonValue.lookup key fields' with
            | none =>
                rw [hlookup] at hagree
                cases hagree
            | some y =>
                rw [hlookup] at hagree
                cases hagree with
                | some hsame => exact ⟨y, (JsonValue.lookup_eq_some hkeys').mp hlookup, hsame⟩
          · intro key y hy
            have hold := List.find?_eq_none.mp hfind _ hy
            simpa using hold

/-- Values that are not alike are equal as they stand. -/
theorem same_of_not_alike {expected actual : JsonValue} (h : ¬ Alike expected actual) :
    expected.Same actual ↔ expected.eq actual = true := by
  unfold JsonValue.Same
  cases expected <;> cases actual
  case array.array values values' => exact absurd (.arrays values values') h
  case object.object fields fields' => exact absurd (.objects fields fields') h
  all_goals simp only [JsonValue.intoJson, JsonValue.collectMap, JsonValue.eq]

theorem differenceFrom_of_not_alike {expected actual : JsonValue} (h : ¬ Alike expected actual) :
    differenceFrom expected (some actual) base = if expected.eq actual then none else
      some ⟨base, some expected.intoJson, some actual.intoJson⟩ := by
  cases expected <;> cases actual
  case array.array values values' => exact absurd (.arrays values values') h
  case object.object fields fields' => exact absurd (.objects fields fields') h
  all_goals rfl

theorem finds_of_not_alike {expected actual : JsonValue} (h : ¬ Alike expected actual) :
    WalkFinds (some expected) (some actual) base (differenceFrom expected (some actual) base) := by
  rw [differenceFrom_of_not_alike h]
  split_ifs with heq
  · exact .some ((same_of_not_alike h).mpr heq)
  · exact finds_here (some expected) (some actual) ⟨h, fun hsame => heq ((same_of_not_alike h).mp hsame)⟩

end

mutual

/-- The walk from a value of the expected side. -/
theorem differenceFrom_finds (expected : JsonValue) (actual : Option JsonValue) (base : String)
    (hexpected : expected.Distinct) (hactual : ∀ v ∈ actual, v.Distinct) :
    WalkFinds (some expected) actual base (differenceFrom expected actual base) := by
  match actual with
  | none =>
      have hnone : differenceFrom expected none base =
          some ⟨base, some expected.intoJson, none⟩ := by
        cases expected <;> rfl
      rw [hnone]
      exact finds_here (some expected) none trivial
  | some actual =>
      have hactual := hactual actual rfl
      by_cases halike : Alike expected actual
      · match expected, actual, halike with
        | _, _, .arrays values values' =>
            cases hexpected with
            | array hvalues =>
                cases hactual with
                | array hvalues' =>
                    rw [differenceFrom]
                    exact (itemDifference_finds values values' base 0 hvalues hvalues').finds
        | _, _, .objects fields fields' =>
            cases hexpected with
            | object hkeys hfields =>
                cases hactual with
                | object hkeys' hfields' =>
                    rw [differenceFrom]
                    exact (fieldDifference_finds fields fields' base hfields hkeys'
                      hfields').finds hkeys hkeys'
      · exact finds_of_not_alike halike

theorem itemDifference_finds (values values' : List JsonValue) (base : String) (index : ℕ)
    (hvalues : ∀ v ∈ values, v.Distinct) (hvalues' : ∀ v ∈ values', v.Distinct) :
    ItemFinds base index values values' (itemDifference base index values values') := by
  match values, values' with
  | [], [] => exact .nil
  | [], value' :: values' =>
      exact ⟨0, [], fun j hj => absurd hj (Nat.not_lt_zero j), .here trivial⟩
  | value :: values, values' =>
      rw [itemDifference]
      rw [List.forall_mem_cons] at hvalues
      refine .cons (differenceFrom_finds value _ _ hvalues.1 ?_)
        (itemDifference_finds values _ base (index + 1) hvalues.2 ?_)
      · intro v hv
        exact hvalues' v (List.mem_of_head? hv)
      · intro v hv
        exact hvalues' v (List.mem_of_mem_tail hv)

theorem fieldDifference_finds (fields fields' : List (String × JsonValue)) (base : String)
    (hfields : ∀ f ∈ fields, f.2.Distinct) (hkeys' : KeysDistinct fields')
    (hfields' : ∀ f ∈ fields', f.2.Distinct) :
    FieldFinds base fields' fields (fieldDifference base fields' fields) := by
  match fields with
  | [] => simp [fieldDifference, FieldFinds]
  | (name, value) :: fields =>
      rw [fieldDifference]
      rw [List.forall_mem_cons] at hfields
      refine .cons (differenceFrom_finds value _ _ hfields.1 ?_)
        (fieldDifference_finds fields fields' base hfields.2 hkeys' hfields')
      intro v hv
      exact hfields' _ ((JsonValue.lookup_eq_some hkeys').mp hv)

end

/-! ## A first difference is one -/

theorem getElem?_agree {values values' : List JsonValue}
    (h : List.Forall₂ JsonValue.Same values values') (i : ℕ) : Agree values[i]? values'[i]? := by
  induction h generalizing i with
  | nil => exact .none
  | cons hsame _ ih =>
      cases i with
      | zero => exact .some hsame
      | succ i => exact ih i

theorem lookup_agree {fields fields' : List (String × JsonValue)} (hkeys : KeysDistinct fields)
    (hkeys' : KeysDistinct fields') (h : SameEntries JsonValue.Same fields fields')
    (name : String) : Agree (JsonValue.lookup name fields) (JsonValue.lookup name fields') := by
  cases hlookup : JsonValue.lookup name fields with
  | some v =>
      obtain ⟨w, hw, hsame⟩ := h.related _ _ ((JsonValue.lookup_eq_some hkeys).mp hlookup)
      rw [(JsonValue.lookup_eq_some hkeys').mpr hw]
      exact .some hsame
  | none =>
      rw [JsonValue.lookup_eq_none.mpr]
      · exact .none
      · rintro ⟨key, w⟩ hw rfl
        obtain ⟨v, hv⟩ := h.keys key w hw
        exact JsonValue.lookup_eq_none.mp hlookup _ hv rfl

/-- Equal values agree one step below. -/
theorem child_agree {expected actual : JsonValue} (hexpected : expected.Distinct)
    (hactual : actual.Distinct) (halike : Alike expected actual) (h : expected.Same actual)
    (s : Segment) : Agree (expected.child s) (actual.child s) := by
  cases halike with
  | arrays values values' =>
      cases s with
      | index i => exact getElem?_agree (JsonValue.same_array.mp h) i
      | field name => exact .none
  | objects fields fields' =>
      cases s with
      | index i => exact .none
      | field name =>
          cases hexpected with
          | object hkeys _ =>
              cases hactual with
              | object hkeys' _ =>
                  exact lookup_agree hkeys hkeys' ((JsonValue.same_object hkeys hkeys').mp h) name

theorem JsonValue.Distinct.child {v w : JsonValue} (h : v.Distinct) {s : Segment}
    (hchild : v.child s = some w) : w.Distinct := by
  cases h with
  | array hvalues =>
      cases s with
      | index i => exact hvalues w (List.mem_of_getElem? hchild)
      | field name => cases hchild
  | object hkeys hfields =>
      cases s with
      | index i => cases hchild
      | field name => exact hfields _ ((JsonValue.lookup_eq_some hkeys).mp hchild)
  | _ => cases s <;> cases hchild

/-- Equal values have no first difference. -/
theorem not_firstAt_of_agree {expected actual : Option JsonValue} {p : List Segment}
    (hexpected : ∀ v ∈ expected, v.Distinct) (hactual : ∀ v ∈ actual, v.Distinct)
    (h : Agree expected actual) : ¬ FirstAt expected actual p := by
  intro hfirst
  induction p generalizing expected actual with
  | nil =>
      cases h with
      | none => exact hfirst
      | some hsame => exact hfirst.2 hsame
  | cons s p ih =>
      cases h with
      | none => exact hfirst
      | some hsame =>
          obtain ⟨halike, -, hbelow⟩ := hfirst
          have he := hexpected _ rfl
          have ha := hactual _ rfl
          exact ih (fun v hv => he.child hv) (fun v hv => ha.child hv)
            (child_agree he ha halike hsame s) hbelow

end Summoners
