import Mathlib.Data.Bool.AllAny
import Mathlib.Data.List.Forall2
import Mathlib.Data.List.Nodup
import Mathlib.Data.List.Perm.Basic
import Mathlib.Data.List.TakeWhile
import Summoners.Checked.Separated
import Summoners.Checked.Utf8

/-! # Form text

The fields of queries and form bodies: `decode_form_component` of `server.rs` and `decode_component`
of `download.rs` are one loop with two errors, and so are the first lines of the two loops over the
fields. The serializer of the url crate and the encoding a browser sends are a parameter: of each
byte they make one of the spellings the format has.
-/

namespace Summoners.Cceroby
set_option autoImplicit false

open Checked

section
variable {ε : Type} (malformed : ε)

/-- `hex_value`. -/
def hexValue (byte : UInt8) : Option UInt8 :=
  if 48 ≤ byte && byte ≤ 57 then some (byte - 48)
  else if 97 ≤ byte && byte ≤ 102 then some (byte - 97 + 10)
  else if 65 ≤ byte && byte ≤ 70 then some (byte - 65 + 10)
  else none

/-- The loop of the decoders: what is decoded behind a position. -/
def decodeLoop (bytes : List UInt8) (position : ℕ) (decoded : List UInt8) :
    Except ε (List UInt8) :=
  if h : position < bytes.length then
    if bytes[position] = 43 then decodeLoop bytes (position + 1) (decoded ++ [32])
    else if bytes[position] = 37 then
      match bytes[position + 1]?.bind hexValue with
      | none => .error malformed
      | some high =>
          match bytes[position + 2]?.bind hexValue with
          | none => .error malformed
          | some low => decodeLoop bytes (position + 3) (decoded ++ [high <<< 4 ||| low])
    else decodeLoop bytes (position + 1) (decoded ++ [bytes[position]])
  else .ok decoded
termination_by bytes.length - position

def decodeWith (raw : String) : Except ε String := do
  let decoded ← decodeLoop malformed (bytesOf raw) 0 []
  match fromUtf8 decoded with
  | some text => .ok text
  | none => .error malformed

/-- `str::split_once`. -/
def splitOnce (separator : Char) (text : String) : Option (String × String) :=
  match text.toList.dropWhile (fun c => c ≠ separator) with
  | [] => none
  | _ :: back =>
      some (String.ofList (text.toList.takeWhile (fun c => c ≠ separator)), String.ofList back)

/-- The name and the value of one field. -/
def readField (field : String) : Except ε (String × String) :=
  match (splitOnce '=' field).filter (fun parts => !parts.1.isEmpty) with
  | none => .error malformed
  | some (rawName, rawValue) => do
      let name ← decodeWith malformed rawName
      let value ← decodeWith malformed rawValue
      .ok (name, value)

end

/-- `raw.split('&')`. -/
def fieldsOf (raw : String) : List String := (raw.toList.splitOn '&').map String.ofList

/-! ## What the decoders read -/

/-- The bytes a component stands for: a plus sign is a space, a percent sign and two digits are a
byte, any other byte is itself. -/
inductive Escapes : List UInt8 → List UInt8 → Prop
  | nil : Escapes [] []
  | plus {raw decoded : List UInt8} (rest : Escapes raw decoded) :
      Escapes (43 :: raw) (32 :: decoded)
  | percent {a b high low : UInt8} {raw decoded : List UInt8} (ha : hexValue a = some high)
      (hb : hexValue b = some low) (rest : Escapes raw decoded) :
      Escapes (37 :: a :: b :: raw) ((high <<< 4 ||| low) :: decoded)
  | kept {byte : UInt8} {raw decoded : List UInt8} (hplus : byte ≠ 43) (hpercent : byte ≠ 37)
      (rest : Escapes raw decoded) : Escapes (byte :: raw) (byte :: decoded)

/-- Every percent sign is followed by two digits. -/
def PercentsEscaped (bytes : List UInt8) : Prop :=
  ∀ i, bytes[i]? = some (37 : UInt8) →
    (bytes[i + 1]?.bind hexValue).isSome = true ∧ (bytes[i + 2]?.bind hexValue).isSome = true

/-- A component and the text it stands for. -/
structure Component (raw text : String) : Prop where
  percents : PercentsEscaped (bytesOf raw)
  escapes : Escapes (bytesOf raw) (bytesOf text)

variable {ε : Type} {malformed : ε} {bytes decoded : List UInt8}

theorem hexValue_percent : hexValue 37 = none := by decide

theorem Escapes.nil_iff {out : List UInt8} : Escapes [] out ↔ out = [] := by
  constructor
  · rintro ⟨⟩
    rfl
  · rintro rfl
    exact .nil

theorem Escapes.plus_iff {raw out : List UInt8} :
    Escapes (43 :: raw) out ↔ ∃ rest, Escapes raw rest ∧ out = 32 :: rest := by
  constructor
  · intro h
    cases h with
    | plus rest => exact ⟨_, rest, rfl⟩
    | kept hplus => exact absurd rfl hplus
  · rintro ⟨rest, h, rfl⟩
    exact .plus h

theorem Escapes.kept_iff {byte : UInt8} {raw out : List UInt8} (hplus : byte ≠ 43)
    (hpercent : byte ≠ 37) :
    Escapes (byte :: raw) out ↔ ∃ rest, Escapes raw rest ∧ out = byte :: rest := by
  constructor
  · intro h
    cases h with
    | plus => exact absurd rfl hplus
    | percent => exact absurd rfl hpercent
    | kept _ _ rest => exact ⟨_, rest, rfl⟩
  · rintro ⟨rest, h, rfl⟩
    exact .kept hplus hpercent h

/-- Behind a percent sign stand the two digits that the loop looks ahead to. -/
theorem Escapes.percent_iff {position : ℕ} {out : List UInt8} :
    Escapes (37 :: bytes.drop (position + 1)) out ↔
      ∃ high low rest, bytes[position + 1]?.bind hexValue = some high ∧
        bytes[position + 2]?.bind hexValue = some low ∧
        Escapes (bytes.drop (position + 3)) rest ∧ out = (high <<< 4 ||| low) :: rest := by
  constructor
  · generalize hraw : bytes.drop (position + 1) = raw
    intro h
    cases h with
    | @percent a b high low raw rest ha hb hrest =>
      have hfirst : bytes[position + 1]? = some a := by
        rw [← Nat.add_zero (position + 1), ← List.getElem?_drop, hraw]
        rfl
      have hsecond : bytes[position + 2]? = some b := by
        rw [← List.getElem?_drop (i := position + 1) (j := 1), hraw]
        rfl
      have hdrop : bytes.drop (position + 3) = raw := by
        have hsum : bytes.drop (position + 1 + 2) = raw := by
          rw [← List.drop_drop, hraw]
          rfl
        exact hsum
      refine ⟨high, low, rest, ?_, ?_, hdrop ▸ hrest, rfl⟩
      · rw [hfirst]
        exact ha
      · rw [hsecond]
        exact hb
    | kept _ hpercent => exact absurd rfl hpercent
  · rintro ⟨high, low, rest, ha, hb, h, rfl⟩
    obtain ⟨a, ha', ha⟩ := Option.bind_eq_some_iff.mp ha
    obtain ⟨b, hb', hb⟩ := Option.bind_eq_some_iff.mp hb
    obtain ⟨hpos, rfl⟩ := List.getElem?_eq_some_iff.mp ha'
    obtain ⟨hpos', rfl⟩ := List.getElem?_eq_some_iff.mp hb'
    rw [List.drop_eq_getElem_cons hpos, List.drop_eq_getElem_cons hpos']
    exact .percent ha hb h

/-- The loop reads the bytes behind its position. -/
theorem decodeLoop_ok {position : ℕ} {out : List UInt8} :
    decodeLoop malformed bytes position decoded = .ok out ↔
      ∃ rest, Escapes (bytes.drop position) rest ∧ out = decoded ++ rest := by
  fun_induction decodeLoop malformed bytes position decoded with
  | case1 position decoded h hplus ih =>
    rw [ih, List.drop_eq_getElem_cons h, hplus]
    simp [Escapes.plus_iff]
  | case2 position decoded h hplus hpercent hfirst =>
    rw [List.drop_eq_getElem_cons h, hpercent]
    simp [Escapes.percent_iff, hfirst]
  | case3 position decoded h hplus hpercent high hfirst hsecond =>
    rw [List.drop_eq_getElem_cons h, hpercent]
    simp [Escapes.percent_iff, hsecond]
  | case4 position decoded h hplus hpercent high hfirst low hsecond ih =>
    rw [ih, List.drop_eq_getElem_cons h, hpercent]
    simp [Escapes.percent_iff, hfirst, hsecond]
  | case5 position decoded h hplus hpercent ih =>
    rw [ih, List.drop_eq_getElem_cons h]
    simp only [Escapes.kept_iff hplus hpercent, List.append_assoc, List.singleton_append]
    constructor
    · rintro ⟨rest, hrest, rfl⟩
      exact ⟨_, ⟨rest, hrest, rfl⟩, rfl⟩
    · rintro ⟨_, ⟨rest, hrest, rfl⟩, rfl⟩
      exact ⟨rest, hrest, rfl⟩
  | case6 position decoded h =>
    rw [List.drop_eq_nil_of_le (Nat.not_lt.mp h)]
    simp [Escapes.nil_iff, eq_comm]

theorem decodeLoop_error {position : ℕ} {e : ε}
    (h : decodeLoop malformed bytes position decoded = .error e) : e = malformed := by
  fun_induction decodeLoop malformed bytes position decoded with
  | case1 position decoded _ _ ih => exact ih h
  | case2 => exact (Except.error.inj h).symm
  | case3 => exact (Except.error.inj h).symm
  | case4 position decoded _ _ _ high _ low _ ih => exact ih h
  | case5 position decoded _ _ _ ih => exact ih h
  | case6 => cases h

/-- Digits are no percent signs, so a percent sign in front of a component is where the loop sees
it. -/
theorem percentsEscaped_of_escapes (h : Escapes bytes decoded) : PercentsEscaped bytes := by
  induction h with
  | nil =>
    intro i hi
    cases hi
  | plus rest ih =>
    intro i hi
    cases i with
    | zero => cases hi
    | succ i => exact ih i hi
  | @percent a b high low raw decoded ha hb rest ih =>
    intro i hi
    match i with
    | 0 => exact ⟨by simp [ha], by simp [hb]⟩
    | 1 =>
      have hdigit : a = 37 := Option.some.inj hi
      rw [hdigit, hexValue_percent] at ha
      cases ha
    | 2 =>
      have hdigit : b = 37 := Option.some.inj hi
      rw [hdigit, hexValue_percent] at hb
      cases hb
    | i + 3 => exact ih i hi
  | @kept byte raw decoded hplus hpercent rest ih =>
    intro i hi
    cases i with
    | zero => exact absurd (Option.some.inj hi) hpercent
    | succ i => exact ih i hi

theorem PercentsEscaped.tail {byte : UInt8} (h : PercentsEscaped (byte :: bytes)) :
    PercentsEscaped bytes :=
  fun i hi => h (i + 1) hi

theorem exists_escapes (h : PercentsEscaped bytes) : ∃ decoded, Escapes bytes decoded := by
  induction hlength : bytes.length using Nat.strong_induction_on generalizing bytes with
  | _ n ih =>
    subst hlength
    cases bytes with
    | nil => exact ⟨[], .nil⟩
    | cons byte raw =>
      by_cases hplus : byte = 43
      · subst hplus
        obtain ⟨rest, hrest⟩ := ih _ (Nat.lt_succ_self _) h.tail rfl
        exact ⟨_, .plus hrest⟩
      · by_cases hpercent : byte = 37
        · subst hpercent
          obtain ⟨hfirst, hsecond⟩ := h 0 rfl
          match raw, hfirst, hsecond, h, ih with
          | a :: b :: raw, hfirst, hsecond, h, ih =>
            obtain ⟨high, ha⟩ := Option.isSome_iff_exists.mp hfirst
            obtain ⟨low, hb⟩ := Option.isSome_iff_exists.mp hsecond
            obtain ⟨rest, hrest⟩ := ih raw.length (by simp only [List.length_cons]; omega)
              h.tail.tail.tail rfl
            exact ⟨_, .percent ha hb hrest⟩
        · obtain ⟨rest, hrest⟩ := ih _ (Nat.lt_succ_self _) h.tail rfl
          exact ⟨_, .kept hplus hpercent hrest⟩

theorem Escapes.unique {decoded' : List UInt8} (h : Escapes bytes decoded)
    (h' : Escapes bytes decoded') : decoded' = decoded := by
  induction h generalizing decoded' with
  | nil => exact Escapes.nil_iff.mp h'
  | plus rest ih =>
    obtain ⟨rest', hrest, rfl⟩ := Escapes.plus_iff.mp h'
    rw [ih hrest]
  | percent ha hb rest ih =>
    cases h' with
    | percent ha' hb' rest' =>
      rw [ha, Option.some.injEq] at ha'
      rw [hb, Option.some.injEq] at hb'
      rw [ha', hb', ih rest']
    | kept _ hpercent => exact absurd rfl hpercent
  | kept hplus hpercent rest ih =>
    obtain ⟨rest', hrest, rfl⟩ := (Escapes.kept_iff hplus hpercent).mp h'
    rw [ih hrest]

theorem decodeWith_ok {raw text : String} :
    decodeWith malformed raw = .ok text ↔ Component raw text := by
  unfold decodeWith
  constructor
  · intro h
    cases hloop : decodeLoop malformed (bytesOf raw) 0 [] with
    | error e => rw [hloop] at h; cases h
    | ok out =>
      rw [hloop] at h
      obtain ⟨rest, hrest, rfl⟩ := decodeLoop_ok.mp hloop
      simp only [bind, Except.bind] at h
      split at h
      next text' htext =>
        cases h
        rw [← fromUtf8_eq_some.mp htext] at hrest
        exact ⟨percentsEscaped_of_escapes hrest, hrest⟩
      · cases h
  · intro h
    have hloop : decodeLoop malformed (bytesOf raw) 0 [] = .ok (bytesOf text) :=
      decodeLoop_ok.mpr ⟨_, h.escapes, rfl⟩
    rw [hloop]
    simp [bind, Except.bind, fromUtf8_bytesOf]

theorem decodeWith_error {raw : String} {e : ε} (h : decodeWith malformed raw = .error e) :
    e = malformed := by
  unfold decodeWith at h
  cases hloop : decodeLoop malformed (bytesOf raw) 0 [] with
  | error e' =>
    rw [hloop] at h
    cases h
    exact decodeLoop_error hloop
  | ok out =>
    rw [hloop] at h
    simp only [bind, Except.bind] at h
    split at h
    · cases h
    · exact (Except.error.inj h).symm

/-- A component is decoded exactly if its percent signs are escapes and its bytes are a text. -/
theorem decodeWith_isOk {raw : String} :
    (∃ text, decodeWith malformed raw = .ok text) ↔ PercentsEscaped (bytesOf raw) ∧
      ∀ decoded, Escapes (bytesOf raw) decoded → ∃ text, bytesOf text = decoded := by
  constructor
  · rintro ⟨text, h⟩
    have hcomponent := decodeWith_ok.mp h
    exact ⟨hcomponent.percents, fun decoded hdecoded =>
      ⟨text, (hdecoded.unique hcomponent.escapes)⟩⟩
  · rintro ⟨hpercents, hvalid⟩
    obtain ⟨decoded, hdecoded⟩ := exists_escapes hpercents
    obtain ⟨text, rfl⟩ := hvalid decoded hdecoded
    exact ⟨text, decodeWith_ok.mpr ⟨hpercents, hdecoded⟩⟩

/-! ## Fields -/

theorem dropWhile_eq_cons {p : Char → Bool} {l rest : List Char} {c : Char}
    (h : l.dropWhile p = c :: rest) : p c = false ∧ l = l.takeWhile p ++ c :: rest := by
  constructor
  · have hhead := List.head_dropWhile_not p (by rw [h]; exact List.cons_ne_nil _ _)
    simpa only [h, List.head_cons] using hhead
  · rw [← h, List.takeWhile_append_dropWhile]

theorem splitOnce_eq_some {separator : Char} {text front back : String} :
    splitOnce separator text = some (front, back) ↔
      separator ∉ front.toList ∧ text.toList = front.toList ++ separator :: back.toList := by
  unfold splitOnce
  constructor
  · intro h
    split at h
    · cases h
    next c rest hback =>
      rw [Option.some.injEq, Prod.mk.injEq] at h
      obtain ⟨rfl, rfl⟩ := h
      obtain ⟨hc, htext⟩ := dropWhile_eq_cons hback
      rw [decide_eq_false_iff_not, ne_eq, Decidable.not_not] at hc
      rw [hc] at htext
      rw [String.toList_ofList, String.toList_ofList]
      refine ⟨fun hmem => ?_, htext⟩
      simpa using List.mem_takeWhile_imp hmem
  · rintro ⟨hfront, htext⟩
    have hkept : ∀ c ∈ front.toList, decide (c ≠ separator) = true := by
      intro c hc
      rw [decide_eq_true_eq]
      rintro rfl
      exact hfront hc
    rw [htext, List.dropWhile_append_of_pos hkept, List.takeWhile_append_of_pos hkept]
    simp

/-- One field of a body: the name and the value as they stand there, and the texts they stand for. -/
structure Field where
  rawName : String
  rawValue : String
  name : String
  value : String

def Field.raw (field : Field) : String := s!"{field.rawName}={field.rawValue}"

def Field.pair (field : Field) : String × String := (field.name, field.value)

/-- A field can stand between ampersands and be read. -/
structure Field.WellFormed (field : Field) : Prop where
  name_equals : '=' ∉ field.rawName.toList
  name_ampersand : '&' ∉ field.rawName.toList
  value_ampersand : '&' ∉ field.rawValue.toList
  name : Component field.rawName field.name
  value : Component field.rawValue field.value

/-- A body is its fields joined by ampersands. -/
structure IsBody (raw : String) (fields : List Field) : Prop where
  joined : raw = "&".intercalate (fields.map Field.raw)
  field : ∀ f ∈ fields, f.WellFormed

theorem Component.empty {text : String} (h : Component "" text) : text = "" := by
  have hbytes : bytesOf text = [] := Escapes.nil_iff.mp h.escapes
  exact bytesOf_injective hbytes

theorem readField_ok {raw name value : String} :
    readField malformed raw = .ok (name, value) ↔
      ∃ rawName rawValue, rawName ≠ "" ∧ '=' ∉ rawName.toList ∧ raw = s!"{rawName}={rawValue}" ∧
        Component rawName name ∧ Component rawValue value := by
  have hjoin : ∀ rawName rawValue : String, raw = s!"{rawName}={rawValue}" ↔
      raw.toList = rawName.toList ++ '=' :: rawValue.toList := by
    intro rawName rawValue
    rw [← String.toList_inj]
    simp [ToString.toString]
  have hsplit : ∀ rawName rawValue : String,
      (splitOnce '=' raw).filter (fun parts => !parts.1.isEmpty) = some (rawName, rawValue) ↔
        rawName ≠ "" ∧ '=' ∉ rawName.toList ∧ raw = s!"{rawName}={rawValue}" := by
    intro rawName rawValue
    rw [Option.filter_eq_some_iff, splitOnce_eq_some, ← hjoin]
    simp [and_comm]
  unfold readField
  constructor
  · intro h
    split at h
    · cases h
    next rawName rawValue hparts =>
      obtain ⟨hne, hequals, hraw⟩ := (hsplit _ _).mp hparts
      cases hname : decodeWith malformed rawName with
      | error e => rw [hname] at h; cases h
      | ok name' =>
        cases hvalue : decodeWith malformed rawValue with
        | error e => rw [hname, hvalue] at h; cases h
        | ok value' =>
          rw [hname, hvalue] at h
          cases h
          exact ⟨rawName, rawValue, hne, hequals, hraw, decodeWith_ok.mp hname,
            decodeWith_ok.mp hvalue⟩
  · rintro ⟨rawName, rawValue, hne, hequals, hraw, hname, hvalue⟩
    rw [(hsplit rawName rawValue).mpr ⟨hne, hequals, hraw⟩]
    simp [decodeWith_ok.mpr hname, decodeWith_ok.mpr hvalue, bind, Except.bind]

theorem Field.WellFormed.read {field : Field} (h : field.WellFormed) (hname : field.name ≠ "") :
    readField malformed field.raw = .ok field.pair := by
  refine readField_ok.mpr ⟨field.rawName, field.rawValue, ?_, h.name_equals, rfl, h.name, h.value⟩
  intro hempty
  have hcomponent := h.name
  rw [hempty] at hcomponent
  exact hname hcomponent.empty

theorem Field.raw_toList (field : Field) :
    field.raw.toList = field.rawName.toList ++ '=' :: field.rawValue.toList := by
  simp [Field.raw, ToString.toString]

theorem exists_field {raw : String} {pair : String × String}
    (h : readField malformed raw = .ok pair) (hampersand : '&' ∉ raw.toList) :
    ∃ field : Field, field.raw = raw ∧ field.pair = pair ∧ field.WellFormed := by
  obtain ⟨rawName, rawValue, -, hequals, rfl, hname, hvalue⟩ := readField_ok.mp h
  have hparts := Field.raw_toList ⟨rawName, rawValue, pair.1, pair.2⟩
  unfold Field.raw at hparts
  rw [hparts, List.mem_append, List.mem_cons, not_or, not_or] at hampersand
  exact ⟨⟨rawName, rawValue, pair.1, pair.2⟩, rfl, rfl, hequals, hampersand.1, hampersand.2.2,
    hname, hvalue⟩

/-- The fields that a body splits into. -/
theorem IsBody.fieldsOf {raw : String} {fields : List Field} (h : IsBody raw fields)
    (hne : fields ≠ []) : fieldsOf raw = fields.map Field.raw := by
  have hjoined : raw.toList = ['&'].intercalate (fields.map (fun f => f.raw.toList)) := by
    rw [h.joined, String.toList_intercalate, List.map_map]
    rfl
  have hfree : ∀ part ∈ fields.map (fun f => f.raw.toList), '&' ∉ part := by
    intro part hpart
    obtain ⟨f, hf, rfl⟩ := List.mem_map.mp hpart
    have hwell := h.field f hf
    rw [f.raw_toList, List.mem_append, List.mem_cons, not_or, not_or]
    exact ⟨hwell.name_ampersand, by decide, hwell.value_ampersand⟩
  unfold Cceroby.fieldsOf
  rw [hjoined, List.splitOn_intercalate '&' hfree (by simpa using hne), List.map_map]
  apply List.map_congr_left
  intro f _
  exact String.ofList_toList

theorem exists_fields {raws : List String} {pairs : List (String × String)}
    (h : List.Forall₂ (fun raw pair => readField malformed raw = .ok pair) raws pairs)
    (hampersand : ∀ raw ∈ raws, '&' ∉ raw.toList) :
    ∃ fields : List Field, fields.map Field.raw = raws ∧ fields.map Field.pair = pairs ∧
      ∀ f ∈ fields, f.WellFormed := by
  induction h with
  | nil => exact ⟨[], rfl, rfl, by simp⟩
  | cons hread _ ih =>
    obtain ⟨field, rfl, rfl, hwell⟩ := exists_field hread (hampersand _ List.mem_cons_self)
    obtain ⟨fields, rfl, rfl, hfields⟩ := ih (fun raw hraw =>
      hampersand raw (List.mem_cons_of_mem _ hraw))
    exact ⟨field :: fields, rfl, rfl, List.forall_mem_cons.mpr ⟨hwell, hfields⟩⟩

theorem exists_body {raw : String} {pairs : List (String × String)}
    (h : List.Forall₂ (fun field pair => readField malformed field = .ok pair) (fieldsOf raw)
      pairs) :
    ∃ fields, IsBody raw fields ∧ fields.map Field.pair = pairs := by
  have hampersand : ∀ part ∈ fieldsOf raw, '&' ∉ part.toList := by
    intro part hpart
    obtain ⟨l, hl, rfl⟩ := List.mem_map.mp hpart
    rw [String.toList_ofList]
    exact notMem_of_mem_splitOn hl
  obtain ⟨fields, hraw, hpairs, hwell⟩ := exists_fields h hampersand
  refine ⟨fields, ⟨?_, hwell⟩, hpairs⟩
  apply String.toList_inj.mp
  rw [hraw, String.toList_intercalate, fieldsOf, List.map_map]
  have hlists : (raw.toList.splitOn '&').map (String.toList ∘ String.ofList) =
      raw.toList.splitOn '&' := by
    simp [Function.comp_def]
  rw [hlists]
  exact (List.intercalate_splitOn '&').symm

/-- Fields with given names, in the order of the names. -/
theorem exists_ordered {fields : List Field} {names : List String}
    (h : (fields.map Field.name).Perm names) :
    ∃ pairs, pairs.map Prod.fst = names ∧ (fields.map Field.pair).Perm pairs := by
  have hnames : names.Perm ((fields.map Field.pair).map Prod.fst) := by
    rw [List.map_map]
    exact h.symm
  have hcomp := congrFun₂ (List.eq_map_comp_perm (Prod.fst (α := String) (β := String))) names
    (fields.map Field.pair)
  obtain ⟨pairs, hpairs, hperm⟩ := hcomp.mpr hnames
  exact ⟨pairs, hpairs.symm, hperm.symm⟩

/-! ## Slots

A parser with one slot for each of its names reads a body exactly if every field has a name of its
own among them.
-/

section
variable {σ : Type} {get : σ → String → Option String}
  {put : σ → String × String → Except ε σ} {names : List String}

/-- What the arms of a parser do: fill the empty slot of a known name, and nothing else. -/
structure Fills (get : σ → String → Option String) (put : σ → String × String → Except ε σ)
    (names : List String) : Prop where
  ok : ∀ {slots field slots'}, put slots field = .ok slots' →
    field.1 ∈ names ∧ get slots field.1 = none ∧
      ∀ name, get slots' name = if name = field.1 then some field.2 else get slots name
  accepts : ∀ {slots field}, field.1 ∈ names → get slots field.1 = none →
    ∃ slots', put slots field = .ok slots'

/-- The loop over the fields of a body. -/
def fillAll (malformed : ε) (put : σ → String × String → Except ε σ) (slots : σ)
    (raws : List String) : Except ε σ :=
  raws.foldlM (fun slots raw => do
    let field ← readField malformed raw
    put slots field) slots

theorem fillAll_cons {slots slots' : σ} {raw : String} {raws : List String} :
    fillAll malformed put slots (raw :: raws) = .ok slots' ↔
      ∃ field next, readField malformed raw = .ok field ∧ put slots field = .ok next ∧
        fillAll malformed put next raws = .ok slots' := by
  unfold fillAll
  rw [List.foldlM_cons]
  cases hread : readField malformed raw with
  | error e => simp [bind, Except.bind]
  | ok field =>
    cases hput : put slots field with
    | error e => simp [bind, Except.bind, hput]
    | ok next => simp [bind, Except.bind, hput]

/-- **What a filled state holds.** -/
theorem Fills.run (h : Fills get put names) {raws : List String} {slots slots' : σ}
    (hrun : fillAll malformed put slots raws = .ok slots') :
    ∃ pairs, List.Forall₂ (fun raw pair => readField malformed raw = .ok pair) raws pairs ∧
      (pairs.map Prod.fst).Nodup ∧ (∀ p ∈ pairs, p.1 ∈ names ∧ get slots p.1 = none) ∧
      (∀ p ∈ pairs, get slots' p.1 = some p.2) ∧
      ∀ name, name ∉ pairs.map Prod.fst → get slots' name = get slots name := by
  induction raws generalizing slots with
  | nil =>
    cases hrun
    exact ⟨[], .nil, .nil, by simp, by simp, fun _ _ => rfl⟩
  | cons raw raws ih =>
    obtain ⟨field, next, hread, hput, hrest⟩ := fillAll_cons.mp hrun
    obtain ⟨hname, hnone, hget⟩ := h.ok hput
    obtain ⟨pairs, hpairs, hnodup, hempty, hfilled, hframe⟩ := ih hrest
    have hnotMem : field.1 ∉ pairs.map Prod.fst := by
      intro hmem
      obtain ⟨p, hp, hp'⟩ := List.mem_map.mp hmem
      have hslot := (hempty p hp).2
      rw [hp', hget, if_pos rfl] at hslot
      cases hslot
    refine ⟨field :: pairs, .cons hread hpairs, List.nodup_cons.mpr ⟨hnotMem, hnodup⟩, ?_, ?_, ?_⟩
    · refine List.forall_mem_cons.mpr ⟨⟨hname, hnone⟩, fun p hp => ⟨(hempty p hp).1, ?_⟩⟩
      have hslot := (hempty p hp).2
      rw [hget] at hslot
      split at hslot
      · cases hslot
      · exact hslot
    · refine List.forall_mem_cons.mpr ⟨?_, hfilled⟩
      rw [hframe _ hnotMem, hget, if_pos rfl]
    · intro name hne
      rw [List.map_cons, List.mem_cons, not_or] at hne
      rw [hframe _ hne.2, hget, if_neg hne.1]

/-- **What can be filled.** -/
theorem Fills.complete (h : Fills get put names) {raws : List String}
    {pairs : List (String × String)} {slots : σ}
    (hpairs : List.Forall₂ (fun raw pair => readField malformed raw = .ok pair) raws pairs)
    (hnodup : (pairs.map Prod.fst).Nodup)
    (hempty : ∀ p ∈ pairs, p.1 ∈ names ∧ get slots p.1 = none) :
    ∃ slots', fillAll malformed put slots raws = .ok slots' := by
  induction hpairs generalizing slots with
  | nil => exact ⟨slots, rfl⟩
  | @cons raw field raws pairs hread _ ih =>
    rw [List.map_cons, List.nodup_cons] at hnodup
    obtain ⟨hfield, hempty⟩ := List.forall_mem_cons.mp hempty
    obtain ⟨next, hput⟩ := h.accepts hfield.1 hfield.2
    have hnext : ∀ p ∈ pairs, p.1 ∈ names ∧ get next p.1 = none := by
      intro p hp
      refine ⟨(hempty p hp).1, ?_⟩
      rw [(h.ok hput).2.2, if_neg, (hempty p hp).2]
      intro hsame
      exact hnodup.1 (List.mem_map.mpr ⟨p, hp, hsame⟩)
    obtain ⟨slots', hrest⟩ := ih hnodup.2 hnext
    exact ⟨slots', fillAll_cons.mpr ⟨field, next, hread, hput, hrest⟩⟩

/-- A body whose fields have known names, each its own, fills the slots with the values. -/
theorem Fills.of_body (h : Fills get put names) (hnames : "" ∉ names) {empty : σ}
    (hempty : ∀ name, get empty name = none) {raw : String} {fields : List Field}
    (hbody : IsBody raw fields) (hne : fields ≠ []) (hnodup : (fields.map Field.name).Nodup)
    (hknown : ∀ f ∈ fields, f.name ∈ names) :
    ∃ slots, fillAll malformed put empty (fieldsOf raw) = .ok slots ∧
      ∀ f ∈ fields, get slots f.name = some f.value := by
  have hpairs : List.Forall₂ (fun raw pair => readField malformed raw = .ok pair) (fieldsOf raw)
      (fields.map Field.pair) := by
    rw [hbody.fieldsOf hne, List.forall₂_map_left_iff, List.forall₂_map_right_iff,
      List.forall₂_same]
    intro f hf
    exact (hbody.field f hf).read (fun hname => hnames (hname ▸ hknown f hf))
  have hfst : (fields.map Field.pair).map Prod.fst = fields.map Field.name := by
    rw [List.map_map]
    rfl
  obtain ⟨slots, hslots⟩ := h.complete hpairs (by rw [hfst]; exact hnodup) (by
    rw [List.forall_mem_map]
    exact fun f hf => ⟨hknown f hf, hempty _⟩)
  obtain ⟨pairs, hpairs', -, -, hfilled, -⟩ := h.run hslots
  have hsame : fields.map Field.pair = pairs := by
    refine List.right_unique_forall₂' ?_ hpairs hpairs'
    intro raw pair pair' hread hread'
    rw [hread] at hread'
    exact Except.ok.inj hread'
  refine ⟨slots, hslots, fun f hf => hfilled f.pair ?_⟩
  rw [← hsame]
  exact List.mem_map.mpr ⟨f, hf, rfl⟩

/-- The body that a filled state was read from. -/
theorem Fills.exists_body (h : Fills get put names) {empty slots : σ}
    (hempty : ∀ name, get empty name = none) {raw : String}
    (hrun : fillAll malformed put empty (fieldsOf raw) = .ok slots) :
    ∃ fields, IsBody raw fields ∧ (fields.map Field.pair).Nodup ∧
      (∀ f ∈ fields, f.name ∈ names ∧ get slots f.name = some f.value) ∧
      ∀ name value, get slots name = some value → (name, value) ∈ fields.map Field.pair := by
  obtain ⟨pairs, hpairs, hnodup, hknown, hfilled, hframe⟩ := h.run hrun
  obtain ⟨fields, hbody, rfl⟩ := Cceroby.exists_body hpairs
  refine ⟨fields, hbody, List.Nodup.of_map _ hnodup, fun f hf => ?_, fun name value hvalue => ?_⟩
  · have hmem : f.pair ∈ fields.map Field.pair := List.mem_map.mpr ⟨f, hf, rfl⟩
    exact ⟨(hknown _ hmem).1, hfilled _ hmem⟩
  · by_cases hmem : name ∈ (fields.map Field.pair).map Prod.fst
    · obtain ⟨p, hp, rfl⟩ := List.mem_map.mp hmem
      rw [hfilled p hp, Option.some.injEq] at hvalue
      rw [← hvalue]
      exact hp
    · rw [hframe name hmem, hempty] at hvalue
      cases hvalue

variable (malformed) in
/-- **Bodies and slots.** A body fills the slots with the given values exactly if its fields are
these names and values, in any order. -/
theorem Fills.body_iff (h : Fills get put names) (hnames : "" ∉ names) (hnodup : names.Nodup)
    {empty : σ} (hempty : ∀ name, get empty name = none) (raw : String)
    (pairs : List (String × String)) (hfst : pairs.map Prod.fst = names) (hne : pairs ≠ []) :
    (∃ slots, fillAll malformed put empty (fieldsOf raw) = .ok slots ∧
      ∀ p ∈ pairs, get slots p.1 = some p.2) ↔
      ∃ fields, IsBody raw fields ∧ (fields.map Field.pair).Perm pairs := by
  subst hfst
  constructor
  · rintro ⟨slots, hrun, hslots⟩
    obtain ⟨fields, hbody, hfields, hknown, hfilled⟩ := h.exists_body hempty hrun
    refine ⟨fields, hbody, (List.perm_ext_iff_of_nodup hfields (hnodup.of_map _)).mpr ?_⟩
    intro p
    constructor
    · intro hp
      obtain ⟨f, hf, rfl⟩ := List.mem_map.mp hp
      obtain ⟨hname, hvalue⟩ := hknown f hf
      obtain ⟨q, hq, hq'⟩ := List.mem_map.mp hname
      have hsame := hslots q hq
      rw [hq', hvalue, Option.some.injEq] at hsame
      have hpair : f.pair = q := Prod.ext hq'.symm hsame
      rwa [hpair]
    · intro hp
      exact hfilled p.1 p.2 (hslots p hp)
  · rintro ⟨fields, hbody, hperm⟩
    have hfields : (fields.map Field.name).Perm (pairs.map Prod.fst) := by
      have hmap := hperm.map Prod.fst
      rwa [List.map_map] at hmap
    have hsome : fields ≠ [] := by
      rintro rfl
      exact hne hperm.symm.eq_nil
    obtain ⟨slots, hslots, hfilled⟩ := h.of_body hnames hempty hbody hsome
      (hfields.nodup_iff.mpr hnodup)
      (fun f hf => hfields.subset (List.mem_map_of_mem hf))
    refine ⟨slots, hslots, fun p hp => ?_⟩
    obtain ⟨f, hf, rfl⟩ := List.mem_map.mp (hperm.symm.subset hp)
    exact hfilled f hf

theorem fillAll_empty {slots : σ} :
    fillAll malformed put slots (fieldsOf "") = .error malformed := rfl

end

/-! ## Encoders -/

/-- The bytes that stand for themselves: letters, digits and `*-._`. -/
def isUnreserved (byte : UInt8) : Bool :=
  (48 ≤ byte && byte ≤ 57) || (65 ≤ byte && byte ≤ 90) || (97 ≤ byte && byte ≤ 122) ||
    byte = 42 || byte = 45 || byte = 46 || byte = 95

/-- How `application/x-www-form-urlencoded` writes a byte. -/
inductive Spelling : UInt8 → List UInt8 → Prop
  | kept {byte : UInt8} (h : isUnreserved byte = true) : Spelling byte [byte]
  | space : Spelling 32 [43]
  | escaped {byte a b : UInt8} (ha : hexValue a = some (byte >>> 4))
      (hb : hexValue b = some (byte &&& 15)) : Spelling byte [37, a, b]

/-- An encoder of components: the serializer of the url crate, or a browser's. -/
structure FormEncoding where
  encode : String → String
  spells : ∀ text, ∃ parts, List.Forall₂ Spelling (bytesOf text) parts ∧
    bytesOf (encode text) = parts.flatten

theorem forall_byte {P : UInt8 → Prop} [DecidablePred P]
    (h : (List.range 256).all (fun n => decide (P (UInt8.ofNat n))) = true) (byte : UInt8) :
    P byte := by
  have hbyte := List.all_eq_true.mp h byte.toNat (List.mem_range.mpr byte.toNat_lt)
  rwa [UInt8.ofNat_toNat, decide_eq_true_eq] at hbyte

theorem nibbles (byte : UInt8) : (byte >>> 4) <<< 4 ||| (byte &&& 15) = byte :=
  forall_byte (P := fun byte => (byte >>> 4) <<< 4 ||| (byte &&& 15) = byte)
    (by decide +kernel) byte

theorem unreserved_spec {byte : UInt8} (h : isUnreserved byte = true) :
    byte ≠ 43 ∧ byte ≠ 37 ∧ byte ≠ 38 ∧ byte ≠ 61 :=
  forall_byte (P := fun byte => isUnreserved byte = true →
    byte ≠ 43 ∧ byte ≠ 37 ∧ byte ≠ 38 ∧ byte ≠ 61) (by decide +kernel) byte h

theorem digit_spec {byte : UInt8} (h : (hexValue byte).isSome = true) : byte ≠ 38 ∧ byte ≠ 61 :=
  forall_byte (P := fun byte => (hexValue byte).isSome = true → byte ≠ 38 ∧ byte ≠ 61)
    (by decide +kernel) byte h

theorem Spelling.escapes {byte : UInt8} {part raw decoded : List UInt8} (h : Spelling byte part)
    (hrest : Escapes raw decoded) : Escapes (part ++ raw) (byte :: decoded) := by
  cases h with
  | kept h =>
    obtain ⟨hplus, hpercent, -⟩ := unreserved_spec h
    exact .kept hplus hpercent hrest
  | space => exact .plus hrest
  | escaped ha hb =>
    have hpercent := Escapes.percent ha hb hrest
    rwa [nibbles] at hpercent

/-- No spelling holds an ampersand or an equals sign. -/
theorem Spelling.separators {byte : UInt8} {part : List UInt8} (h : Spelling byte part) :
    (38 : UInt8) ∉ part ∧ (61 : UInt8) ∉ part := by
  cases h with
  | kept h =>
    obtain ⟨-, -, hampersand, hequals⟩ := unreserved_spec h
    simp [hampersand.symm, hequals.symm]
  | space => decide
  | escaped ha hb =>
    have hfirst := digit_spec (by rw [ha]; rfl)
    have hsecond := digit_spec (by rw [hb]; rfl)
    simp [hfirst.1.symm, hfirst.2.symm, hsecond.1.symm, hsecond.2.symm]

theorem escapes_flatten {text : List UInt8} {parts : List (List UInt8)}
    (h : List.Forall₂ Spelling text parts) : Escapes parts.flatten text := by
  induction h with
  | nil => exact .nil
  | cons hspelling _ ih =>
    rw [List.flatten_cons]
    exact hspelling.escapes ih

theorem separators_flatten {text : List UInt8} {parts : List (List UInt8)}
    (h : List.Forall₂ Spelling text parts) :
    (38 : UInt8) ∉ parts.flatten ∧ (61 : UInt8) ∉ parts.flatten := by
  induction h with
  | nil => exact ⟨List.not_mem_nil, List.not_mem_nil⟩
  | cons hspelling _ ih =>
    obtain ⟨hampersand, hequals⟩ := hspelling.separators
    rw [List.flatten_cons, List.mem_append, List.mem_append, not_or, not_or]
    exact ⟨⟨hampersand, ih.1⟩, hequals, ih.2⟩

namespace FormEncoding
variable (encoding : FormEncoding)

theorem component (text : String) : Component (encoding.encode text) text := by
  obtain ⟨parts, hparts, hbytes⟩ := encoding.spells text
  have hescapes := escapes_flatten hparts
  rw [← hbytes] at hescapes
  exact ⟨percentsEscaped_of_escapes hescapes, hescapes⟩

theorem separators (text : String) :
    '&' ∉ (encoding.encode text).toList ∧ '=' ∉ (encoding.encode text).toList := by
  obtain ⟨parts, hparts, hbytes⟩ := encoding.spells text
  obtain ⟨hampersand, hequals⟩ := separators_flatten hparts
  rw [← hbytes] at hampersand hequals
  exact ⟨fun h => hampersand ((toUInt8_mem_bytesOf (by decide)).mpr h),
    fun h => hequals ((toUInt8_mem_bytesOf (by decide)).mpr h)⟩

/-- `append_pair` for each pair, and `finish`. -/
def serialize (pairs : List (String × String)) : String :=
  "&".intercalate (pairs.map (fun p => s!"{encoding.encode p.1}={encoding.encode p.2}"))

/-- The field that a pair is written as. -/
def field (p : String × String) : Field := ⟨encoding.encode p.1, encoding.encode p.2, p.1, p.2⟩

theorem isBody_serialize (pairs : List (String × String)) :
    IsBody (encoding.serialize pairs) (pairs.map encoding.field) where
  joined := by
    rw [List.map_map]
    rfl
  field := by
    rw [List.forall_mem_map]
    intro p _
    exact ⟨(encoding.separators p.1).2, (encoding.separators p.1).1, (encoding.separators p.2).1,
      encoding.component p.1, encoding.component p.2⟩

theorem pair_field (pairs : List (String × String)) :
    (pairs.map encoding.field).map Field.pair = pairs := by
  rw [List.map_map]
  exact List.map_id _

end FormEncoding

/-- An uppercase hexadecimal digit. -/
def upperHex (n : UInt8) : UInt8 := if n < 10 then 48 + n else 55 + n

def spell (byte : UInt8) : List UInt8 :=
  if isUnreserved byte then [byte]
  else if byte = 32 then [43]
  else [37, upperHex (byte >>> 4), upperHex (byte &&& 15)]

theorem spell_spelling (byte : UInt8) : Spelling byte (spell byte) := by
  have hdigits : hexValue (upperHex (byte >>> 4)) = some (byte >>> 4) ∧
      hexValue (upperHex (byte &&& 15)) = some (byte &&& 15) :=
    forall_byte (P := fun byte => hexValue (upperHex (byte >>> 4)) = some (byte >>> 4) ∧
      hexValue (upperHex (byte &&& 15)) = some (byte &&& 15)) (by decide +kernel) byte
  unfold spell
  split_ifs with hkept hspace
  · exact .kept hkept
  · rw [hspace]
    exact .space
  · exact .escaped hdigits.1 hdigits.2

theorem spell_ascii (byte : UInt8) : ∀ b ∈ spell byte, b.toNat < 128 :=
  List.all_iff_forall_prop.mp
    (forall_byte (P := fun byte => (spell byte).all (fun b => b.toNat < 128) = true)
      (by decide +kernel) byte)

/-- The text of bytes that are ASCII. -/
def asciiText (bytes : List UInt8) : String :=
  String.ofList (bytes.map (fun byte => Char.ofNat byte.toNat))

theorem bytesOf_asciiText {bytes : List UInt8} (h : ∀ byte ∈ bytes, byte.toNat < 128) :
    bytesOf (asciiText bytes) = bytes := by
  have hchar : ∀ byte ∈ bytes, (Char.ofNat byte.toNat).toNat < 128 ∧
      (Char.ofNat byte.toNat).toUInt8 = byte := by
    intro byte hbyte
    exact forall_byte (P := fun byte => byte.toNat < 128 → (Char.ofNat byte.toNat).toNat < 128 ∧
      (Char.ofNat byte.toNat).toUInt8 = byte) (by decide +kernel) byte (h byte hbyte)
  rw [bytesOf_ascii, asciiText, String.toList_ofList, List.map_map]
  · exact (List.map_congr_left (fun byte hbyte => (hchar byte hbyte).2)).trans (List.map_id _)
  · rw [asciiText, String.toList_ofList, List.forall_mem_map]
    exact fun byte hbyte => (hchar byte hbyte).1

/-- The serializer as the URL standard has it. -/
def FormEncoding.standard : FormEncoding where
  encode text := asciiText ((bytesOf text).map spell).flatten
  spells text := by
    refine ⟨(bytesOf text).map spell, ?_, bytesOf_asciiText ?_⟩
    · rw [List.forall₂_map_right_iff, List.forall₂_same]
      exact fun byte _ => spell_spelling byte
    · intro b hb
      obtain ⟨_, hpart, hb⟩ := List.mem_flatten.mp hb
      obtain ⟨byte, -, rfl⟩ := List.mem_map.mp hpart
      exact spell_ascii byte b hb

end Summoners.Cceroby
