import Summoners.Cards.Convert
import Summoners.Checked.Separated
import Summoners.Checked.Utf8

/-! # Minted identities

Which texts are stable codes, and that the text hashed for an item names the item: no stable code
holds a slash or a colon, so the parts of the text can be told apart.
-/

namespace Summoners
set_option autoImplicit false

open Checked

namespace Model

/-! ## The form of stable codes -/

/-- A lowercase letter or a digit, of ASCII. -/
def IsRunChar (c : Char) : Prop := c.isLower = true ∨ c.isDigit = true

/-- The first character is a lowercase letter, and runs of letters and digits stand with one hyphen
between. -/
structure KeyForm (value : String) (runs : List String) : Prop where
  first : ∃ c, value.toList.head? = some c ∧ c.isLower = true
  joined : value = "-".intercalate runs
  run : ∀ run ∈ runs, run ≠ "" ∧ ∀ c ∈ run.toList, IsRunChar c

section
variable {value : String}

theorem codeByte_spec {c : Char} (h : c.toNat < 128) :
    isAsciiLowercase c.toUInt8 = c.isLower ∧ isAsciiDigit c.toUInt8 = c.isDigit ∧
      (c.toUInt8 = 45 ↔ c = '-') := by
  have hall : ∀ n : Fin 128, isAsciiLowercase (Char.ofNat n).toUInt8 = (Char.ofNat n).isLower ∧
      isAsciiDigit (Char.ofNat n).toUInt8 = (Char.ofNat n).isDigit ∧
        ((Char.ofNat n).toUInt8 = 45 ↔ Char.ofNat n = '-') := by decide +kernel
  exact forall_ascii (P := fun c => isAsciiLowercase c.toUInt8 = c.isLower ∧
    isAsciiDigit c.toUInt8 = c.isDigit ∧ (c.toUInt8 = 45 ↔ c = '-')) hall h

theorem hasDoubleHyphen_eq_false {bytes : List UInt8} :
    hasDoubleHyphen bytes = false ↔ Apart 45 bytes := by
  unfold Apart
  induction bytes with
  | nil => simp [hasDoubleHyphen]
  | cons first bytes ih =>
    cases bytes with
    | nil => simp [hasDoubleHyphen]
    | cons second rest =>
      rw [List.isChain_cons_cons, ← ih, hasDoubleHyphen, Bool.or_eq_false_iff]
      simp

/-- The checks of the syntax, on the characters. -/
structure KeyText (value : String) : Prop where
  first : ∃ c, value.toList.head? = some c ∧ c.isLower = true
  all : ∀ c ∈ value.toList, IsRunChar c ∨ c = '-'
  last : value.toList.getLast? ≠ some '-'
  apart : Apart '-' value.toList

theorem ascii_of_isRunChar {c : Char} (h : IsRunChar c) : c.toNat < 128 := by
  have hval : c.toNat = c.val.toNat := rfl
  unfold IsRunChar Char.isLower Char.isDigit at h
  simp only [Bool.and_eq_true, decide_eq_true_eq, ge_iff_le, UInt32.le_iff_toNat_le] at h
  rw [hval]
  rcases h with h | h
  · exact Nat.lt_of_le_of_lt h.2 (by decide)
  · exact Nat.lt_of_le_of_lt h.2 (by decide)

theorem KeyText.ascii (h : KeyText value) : ∀ c ∈ value.toList, c.toNat < 128 := by
  intro c hc
  rcases h.all c hc with hrun | rfl
  · exact ascii_of_isRunChar hrun
  · decide

theorem apart_map {l : List Char} (h : ∀ c ∈ l, c.toNat < 128) :
    Apart 45 (l.map Char.toUInt8) ↔ Apart '-' l := by
  unfold Apart
  rw [List.isChain_map]
  apply List.IsChain.iff_of_mem_imp
  intro a b ha hb
  rw [(codeByte_spec (h a ha)).2.2, (codeByte_spec (h b hb)).2.2]

theorem head_map {l : List Char} (h : ∀ c ∈ l, c.toNat < 128) :
    (l.map Char.toUInt8).head?.any isAsciiLowercase = true ↔
      ∃ c, l.head? = some c ∧ c.isLower = true := by
  cases l with
  | nil => simp
  | cons c l => simp [(codeByte_spec (h c List.mem_cons_self)).1]

theorem last_map {l : List Char} (h : ∀ c ∈ l, c.toNat < 128) :
    (l.map Char.toUInt8).getLast? ≠ some 45 ↔ l.getLast? ≠ some '-' := by
  rw [List.getLast?_map]
  cases hlast : l.getLast? with
  | none => simp
  | some c => simp [(codeByte_spec (h c (List.mem_of_getLast? hlast))).2.2]

theorem codeByte_iff {c : Char} (h : c.toNat < 128) :
    (isAsciiLowercase c.toUInt8 || isAsciiDigit c.toUInt8 || decide (c.toUInt8 = 45)) = true ↔
      IsRunChar c ∨ c = '-' := by
  obtain ⟨hlower, hdigit, hhyphen⟩ := codeByte_spec h
  rw [hlower, hdigit, Bool.or_eq_true, Bool.or_eq_true, decide_eq_true_eq, hhyphen, IsRunChar]

theorem stableKeySyntax_of_ascii (h : ∀ c ∈ value.toList, c.toNat < 128) :
    stableKeySyntax value = true ↔
      (1 ≤ (bytesOf value).length ∧ (bytesOf value).length ≤ 64) ∧ KeyText value := by
  have hbytes : value.toUTF8.data.toList = value.toList.map Char.toUInt8 := bytesOf_ascii h
  have hchecks : stableKeySyntax value = true ↔
      ((1 ≤ (bytesOf value).length ∧ (bytesOf value).length ≤ 64) ∧
        (value.toList.map Char.toUInt8).head?.any isAsciiLowercase = true ∧
          (∀ byte ∈ value.toList.map Char.toUInt8,
            (isAsciiLowercase byte || isAsciiDigit byte || decide (byte = 45)) = true) ∧
            (value.toList.map Char.toUInt8).getLast? ≠ some 45 ∧
              Apart 45 (value.toList.map Char.toUInt8)) := by
    rw [← hasDoubleHyphen_eq_false, bytesOf, hbytes]
    unfold stableKeySyntax
    simp only [hbytes, Bool.and_eq_true, decide_eq_true_eq, List.all_eq_true, Bool.not_eq_true',
      and_assoc]
  rw [hchecks, head_map h, last_map h, apart_map h, List.forall_mem_map]
  refine and_congr_right (fun _ => ⟨?_, ?_⟩)
  · rintro ⟨hfirst, hall, hlast, hapart⟩
    exact ⟨hfirst, fun c hc => (codeByte_iff (h c hc)).mp (hall c hc), hlast, hapart⟩
  · rintro ⟨hfirst, hall, hlast, hapart⟩
    exact ⟨hfirst, fun c hc => (codeByte_iff (h c hc)).mpr (hall c hc), hlast, hapart⟩

/-- Every byte that the syntax admits is ASCII. -/
theorem ascii_of_stableKeySyntax (h : stableKeySyntax value = true) :
    ∀ c ∈ value.toList, c.toNat < 128 := by
  unfold stableKeySyntax at h
  simp only [Bool.and_eq_true, List.all_eq_true] at h
  apply ascii_of_bytesOf
  intro byte hbyte
  have hadmitted := h.1.1.2 byte hbyte
  simp only [isAsciiLowercase, isAsciiDigit, Bool.or_eq_true, Bool.and_eq_true,
    decide_eq_true_eq, UInt8.le_iff_toNat_le] at hadmitted
  rcases hadmitted with (⟨-, hle⟩ | ⟨-, hle⟩) | rfl
  · exact Nat.lt_of_le_of_lt hle (by decide)
  · exact Nat.lt_of_le_of_lt hle (by decide)
  · decide

theorem stableKeySyntax_iff_keyText :
    stableKeySyntax value = true ↔
      (1 ≤ (bytesOf value).length ∧ (bytesOf value).length ≤ 64) ∧ KeyText value := by
  constructor
  · intro h
    exact (stableKeySyntax_of_ascii (ascii_of_stableKeySyntax h)).mp h
  · intro h
    exact (stableKeySyntax_of_ascii h.2.ascii).mpr h

theorem slash_notMem (h : stableKeySyntax value = true) : '/' ∉ value.toList := by
  intro hmem
  rcases (stableKeySyntax_iff_keyText.mp h).2.all _ hmem with hrun | hhyphen
  · unfold IsRunChar at hrun
    revert hrun
    decide
  · revert hhyphen
    decide

/-! ### Runs -/

theorem toList_join (runs : List String) :
    ("-".intercalate runs).toList = ['-'].intercalate (runs.map String.toList) := by
  rw [String.toList_intercalate]
  rfl

theorem KeyText.form (h : KeyText value) : ∃ runs, KeyForm value runs := by
  have hne : value.toList ≠ [] := by
    obtain ⟨c, hc, -⟩ := h.first
    intro hnil
    rw [hnil] at hc
    cases hc
  have hfirst : value.toList.head? ≠ some '-' := by
    obtain ⟨c, hc, hlower⟩ := h.first
    rw [hc]
    rintro hhyphen
    rw [Option.some.inj hhyphen] at hlower
    revert hlower
    decide
  obtain ⟨runs, hruns⟩ := exists_runs hne hfirst h.last h.apart
  refine ⟨runs.map String.ofList, h.first, ?_, ?_⟩
  · apply String.toList_inj.mp
    rw [toList_join, List.map_map, ← hruns.joined]
    simp [Function.comp_def]
  · rw [List.forall_mem_map]
    intro run hrun
    refine ⟨?_, ?_⟩
    · intro hempty
      apply hruns.nonempty run hrun
      rw [← String.toList_ofList (l := run), hempty]
      rfl
    · rw [String.toList_ofList]
      intro c hc
      have hmem : c ∈ value.toList := by
        rw [← hruns.joined]
        exact mem_intercalate_of_mem hrun hc
      rcases h.all c hmem with hchar | rfl
      · exact hchar
      · exact absurd hc (hruns.free run hrun)

theorem not_isRunChar_hyphen : ¬IsRunChar '-' := by
  unfold IsRunChar
  decide

theorem KeyForm.runs {runs : List String} (h : KeyForm value runs) :
    Runs '-' value.toList (runs.map String.toList) where
  joined := by rw [h.joined, toList_join]
  nonempty := by
    rw [List.forall_mem_map]
    intro run hrun hnil
    exact (h.run run hrun).1 (String.toList_eq_nil_iff.mp hnil)
  free := by
    rw [List.forall_mem_map]
    intro run hrun hmem
    exact not_isRunChar_hyphen ((h.run run hrun).2 '-' hmem)

theorem KeyForm.text {runs : List String} (h : KeyForm value runs) : KeyText value := by
  obtain ⟨-, hlast, hapart⟩ := h.runs.ends
  refine ⟨h.first, fun c hc => ?_, hlast, hapart⟩
  rw [← h.runs.joined] at hc
  rcases mem_intercalate hc with hhyphen | ⟨run, hrun, hmem⟩
  · exact .inr hhyphen
  · obtain ⟨text, htext, rfl⟩ := List.mem_map.mp hrun
    exact .inl ((h.run text htext).2 c hmem)

/-- **What the syntax accepts.** -/
theorem stableKeySyntax_iff :
    stableKeySyntax value = true ↔
      (1 ≤ (bytesOf value).length ∧ (bytesOf value).length ≤ 64) ∧ ∃ runs, KeyForm value runs := by
  rw [stableKeySyntax_iff_keyText]
  exact and_congr_right (fun _ => ⟨KeyText.form, fun ⟨runs, h⟩ => h.text⟩)

end

end Model

/-! ## The texts that are hashed -/

namespace Identity

open Model (StableCode AbilityRole)

/-- What an identity is minted for. -/
inductive Item
  | set (setCode : StableCode)
  | card (setCode cardCode : StableCode)
  | ability (setCode cardCode : StableCode) (role : AbilityRole) (abilityCode : StableCode)

/-- The text that `mint` hashes. -/
def Item.input : Item → String
  | .set setCode => s!"set:{setCode.asStr}"
  | .card setCode cardCode => s!"set:{setCode.asStr}/card:{cardCode.asStr}"
  | .ability setCode cardCode role abilityCode =>
      s!"set:{setCode.asStr}/card:{cardCode.asStr}/ability:{role.identityName}:{abilityCode.asStr}"

/-- The error path: a Set's is always its `id`. -/
def Item.path (path : String) : Item → String
  | .set _ => "id"
  | _ => path

/-- The id the code mints for an item. -/
def Item.minted (newV5 : Vector UInt8 16 → String → String) (path : String) :
    Item → Except SetLoadError EntityId
  | .set setCode => setId newV5 setCode
  | .card setCode cardCode => cardId newV5 setCode cardCode path
  | .ability setCode cardCode role abilityCode =>
      abilityId newV5 setCode cardCode role abilityCode path

theorem Item.minted_eq (newV5 : Vector UInt8 16 → String → String) (path : String) (item : Item) :
    item.minted newV5 path = mint newV5 item.input (item.path path) := by
  cases item with
  | set => rfl
  | card => rfl
  | ability => rfl

/-- The parts of the text between its slashes. -/
def Item.parts : Item → List (List Char)
  | .set setCode => ["set:".toList ++ setCode.asStr.toList]
  | .card setCode cardCode => ["set:".toList ++ setCode.asStr.toList, "card:".toList ++ cardCode.asStr.toList]
  | .ability setCode cardCode role abilityCode =>
      ["set:".toList ++ setCode.asStr.toList, "card:".toList ++ cardCode.asStr.toList,
        "ability:".toList ++ (role.identityName.toList ++ ':' :: abilityCode.asStr.toList)]

theorem Item.input_toList (item : Item) : item.input.toList = ['/'].intercalate item.parts := by
  cases item with
  | set => simp [Item.input, Item.parts, List.intercalate, ToString.toString]
  | card => simp [Item.input, Item.parts, List.intercalate, ToString.toString]
  | ability => simp [Item.input, Item.parts, List.intercalate, ToString.toString]

theorem Item.slash_notMem (item : Item) : ∀ part ∈ item.parts, '/' ∉ part := by
  have hcode : ∀ code : StableCode, '/' ∉ code.asStr.toList := fun code =>
    Model.slash_notMem code.syntax_ok
  have hrole : ∀ role : AbilityRole, '/' ∉ role.identityName.toList := by
    intro role
    cases role <;> decide
  cases item with
  | set => simp [Item.parts, hcode]
  | card => simp [Item.parts, hcode]
  | ability => simp [Item.parts, hcode, hrole]

theorem role_injective {role role' : AbilityRole} {l l' : List Char}
    (h : role.identityName.toList ++ ':' :: l = role'.identityName.toList ++ ':' :: l') :
    role = role' ∧ l = l' := by
  cases role <;> cases role' <;> simp_all [Model.AbilityRole.identityName]

theorem code_eq {a b : StableCode} (h : a.asStr.toList = b.asStr.toList) : a = b := by
  cases a
  cases b
  congr
  exact String.toList_inj.mp h

theorem Item.parts_injective {a b : Item} (h : a.parts = b.parts) : a = b := by
  cases a with
  | set setCode =>
    cases b with
    | set setCode' =>
      simp only [Item.parts, List.cons.injEq, List.append_cancel_left_eq, and_true] at h
      rw [code_eq h]
    | card => simp [Item.parts] at h
    | ability => simp [Item.parts] at h
  | card setCode cardCode =>
    cases b with
    | set => simp [Item.parts] at h
    | card setCode' cardCode' =>
      simp only [Item.parts, List.cons.injEq, List.append_cancel_left_eq, and_true] at h
      rw [code_eq h.1, code_eq h.2]
    | ability => simp [Item.parts] at h
  | ability setCode cardCode role abilityCode =>
    cases b with
    | set => simp [Item.parts] at h
    | card => simp [Item.parts] at h
    | ability setCode' cardCode' role' abilityCode' =>
      simp only [Item.parts, List.cons.injEq, List.append_cancel_left_eq, and_true] at h
      obtain ⟨hrole, hability⟩ := role_injective h.2.2
      rw [code_eq h.1, code_eq h.2.1, hrole, code_eq hability]

theorem Item.input_injective {a b : Item} (h : a.input = b.input) : a = b := by
  apply Item.parts_injective
  have hne : ∀ item : Item, item.parts ≠ [] := by
    intro item
    cases item <;> exact List.cons_ne_nil _ _
  rw [← List.splitOn_intercalate '/' a.slash_notMem (hne a),
    ← List.splitOn_intercalate '/' b.slash_notMem (hne b), ← a.input_toList, ← b.input_toList, h]

/-- What `mint` makes of the hyphenated text of a hash. -/
theorem mint_toText (uuid : Vector UInt8 16 → String → EntityId) (input path : String) :
    mint (fun ns name => (uuid ns name).toText) input path = .ok (uuid idNamespace input) := by
  simp [mint, EntityId.parse_toText]

/-- **Minted identities are unambiguous.** The stable codes are the texts of the form, the texts
hashed for two items differ, and two items share an id only if the hash takes two texts to one
UUID. -/
theorem minted_inputs_unambiguous :
    (∀ value, Model.stableKeySyntax value = true ↔
      (1 ≤ (bytesOf value).length ∧ (bytesOf value).length ≤ 64) ∧
        ∃ runs, Model.KeyForm value runs) ∧
      (∀ newV5 path (item : Item),
        item.minted newV5 path = mint newV5 item.input (item.path path)) ∧
      (∀ a b : Item, a.input = b.input → a = b) ∧
      ∀ (uuid : Vector UInt8 16 → String → EntityId) (a b : Item) (p q : String),
        ∃ id id', a.minted (fun ns name => (uuid ns name).toText) p = .ok id ∧
          b.minted (fun ns name => (uuid ns name).toText) q = .ok id' ∧
          (id = id' → a = b ∨
            a.input ≠ b.input ∧ uuid idNamespace a.input = uuid idNamespace b.input) := by
  refine ⟨fun _ => Model.stableKeySyntax_iff, fun newV5 path item => item.minted_eq newV5 path,
    fun _ _ => Item.input_injective, fun uuid a b p q => ?_⟩
  refine ⟨uuid idNamespace a.input, uuid idNamespace b.input, ?_, ?_, fun hid => ?_⟩
  · rw [Item.minted_eq, mint_toText]
  · rw [Item.minted_eq, mint_toText]
  · by_cases hinput : a.input = b.input
    · exact .inl (Item.input_injective hinput)
    · exact .inr ⟨hinput, hid⟩

theorem minted_inputs_unambiguous_lance :
    Model.stableKeySyntax "ember-lance" = true ∧
      ∀ set card code : StableCode,
        (Item.ability set card .attack code).input ≠ (Item.ability set card .trigger code).input := by
  refine ⟨(minted_inputs_unambiguous.1 "ember-lance").mpr
    ⟨by decide +kernel, ["ember", "lance"], ⟨'e', rfl, rfl⟩, rfl, ?_⟩, ?_⟩
  · have hruns : ∀ run ∈ ["ember", "lance"],
        run ≠ "" ∧ run.toList.all (fun c => c.isLower || c.isDigit) = true := by decide +kernel
    intro run hrun
    obtain ⟨hne, hall⟩ := hruns run hrun
    exact ⟨hne, by simpa [Model.IsRunChar] using hall⟩
  · intro set card code h
    cases minted_inputs_unambiguous.2.2.1 _ _ h

end Identity

end Summoners
