import Mathlib.Data.Bool.AllAny
import Mathlib.Data.List.OfFn
import Summoners.Checked.Utf8
import Summoners.Domain.Ascii
import Summoners.Domain.EntityText

/-! # The spellings of an entity id

`EntityId::parse` accepts two spellings of sixteen bytes: their hexadecimal digits in a row, and the
same digits in the groups that `Display` writes. Up to case the digits are the id.
-/

namespace Summoners
set_option autoImplicit false

open Checked

namespace EntityId

/-- The digits of a text. -/
def digits (input : String) : List Char := input.toList.filter (fun c => c ≠ '-')

/-- Thirty-two hexadecimal digits. -/
structure Digits (hex : List Char) : Prop where
  length : hex.length = 32
  hexdigits : ∀ c ∈ hex, isAsciiHexdigit c = true

/-- The `8-4-4-4-12` shape. -/
def grouped (hex : List Char) : List Char :=
  hex.take 8 ++ '-' :: (hex.drop 8).take 4 ++ '-' :: (hex.drop 12).take 4 ++
    '-' :: (hex.drop 16).take 4 ++ '-' :: hex.drop 20

/-! ## The parser with its indexing -/

/-- `CANONICAL_HYPHEN_POSITIONS.iter().any(|&position| bytes[position] != b'-')`; indexing out of
range is a panic. -/
def anyNotHyphen (bytes : List UInt8) : List ℕ → Option Bool
  | [] => some false
  | position :: positions => do
      let byte ← bytes[position]?
      if byte ≠ 45 then some true else anyNotHyphen bytes positions

/-- `EntityId::parse`, where `none` is a panic. -/
def parseIndexed (input : String) : Option (Except EntityIdParseError EntityId) := do
  let hex ←
    if input.utf8ByteSize = 32 then some (some input.toList)
    else if input.utf8ByteSize = 36 then do
      if ← anyNotHyphen input.toUTF8.data.toList canonicalHyphenPositions then some none
      else some (some (input.toList.filter (fun c => c ≠ '-')))
    else some none
  match hex with
  | none => some (.error ⟨input⟩)
  | some hex =>
      if (String.ofList hex).utf8ByteSize ≠ 32 ∨ !hex.all isAsciiHexdigit then
        some (.error ⟨input⟩)
      else some (.ok ⟨Vector.ofFn (fun index : Fin 16 => byteAt hex index)⟩)

theorem anyNotHyphen_eq {bytes : List UInt8} {positions : List ℕ}
    (h : ∀ position ∈ positions, position < bytes.length) :
    anyNotHyphen bytes positions =
      some (positions.any (fun position => bytes.getD position 0 ≠ 45)) := by
  induction positions with
  | nil => rfl
  | cons position positions ih =>
    obtain ⟨hposition, hrest⟩ := List.forall_mem_cons.mp h
    have hbyte : bytes[position]? = some bytes[position] := List.getElem?_eq_getElem hposition
    have hget : bytes.getD position 0 = bytes[position] := by
      rw [List.getD_eq_getElem?_getD, hbyte]
      rfl
    rw [anyNotHyphen, hbyte, ih hrest, List.any_cons, hget]
    by_cases hne : bytes[position] = 45 <;> simp [hne]

/-- **Every index is in range**, whatever characters the text is made of. -/
theorem parseIndexed_eq (input : String) : parseIndexed input = some (parse input) := by
  unfold parseIndexed parse hexDigits
  by_cases hbare : input.utf8ByteSize = 32
  · simp only [if_pos hbare, Option.bind_eq_bind, Option.bind_some]
    split <;> rfl
  · by_cases hgrouped : input.utf8ByteSize = 36
    · have hlength : input.toUTF8.data.toList.length = 36 := hgrouped
      have hrange : ∀ position ∈ canonicalHyphenPositions,
          position < input.toUTF8.data.toList.length := by
        rw [hlength]
        decide
      simp only [if_neg hbare, if_pos hgrouped, anyNotHyphen_eq hrange, Option.bind_eq_bind,
        Option.bind_some]
      by_cases hany : canonicalHyphenPositions.any (fun position =>
          input.toUTF8.data.toList.getD position 0 ≠ 45) = true
      · simp only [hany, if_true]
      · simp only [hany, Bool.false_eq_true, if_false]
        split <;> rfl
    · simp only [if_neg hbare, if_neg hgrouped, Option.bind_eq_bind, Option.bind_some]

/-! ## One digit, two digits, all digits -/

theorem ascii_of_hexdigit {c : Char} (h : isAsciiHexdigit c = true) : c.toNat < 128 := by
  simp only [isAsciiHexdigit, Bool.or_eq_true, Bool.and_eq_true, decide_eq_true_eq] at h
  omega

theorem hexdigit_spec {c : Char} (h : isAsciiHexdigit c = true) :
    hexValue c < 16 ∧ hexDigit (hexValue c) = toAsciiLowercase c ∧ c ≠ '-' := by
  have hall : ∀ n : Fin 128, isAsciiHexdigit (Char.ofNat n) = true →
      hexValue (Char.ofNat n) < 16 ∧
        hexDigit (hexValue (Char.ofNat n)) = toAsciiLowercase (Char.ofNat n) ∧
          Char.ofNat n ≠ '-' := by decide +kernel
  exact forall_ascii (P := fun c => isAsciiHexdigit c = true → hexValue c < 16 ∧
    hexDigit (hexValue c) = toAsciiLowercase c ∧ c ≠ '-') hall (ascii_of_hexdigit h) h

/-- Two digits written back, in lowercase. -/
theorem lowerHex_pair {a b : Char} (ha : isAsciiHexdigit a = true)
    (hb : isAsciiHexdigit b = true) :
    lowerHex (UInt8.ofNat (16 * hexValue a + hexValue b)) =
      [toAsciiLowercase a, toAsciiLowercase b] := by
  obtain ⟨ha, hadigit, -⟩ := hexdigit_spec ha
  obtain ⟨hb, hbdigit, -⟩ := hexdigit_spec hb
  have hbyte : (UInt8.ofNat (16 * hexValue a + hexValue b)).toNat =
      16 * hexValue a + hexValue b := by
    rw [UInt8.toNat_ofNat']
    omega
  have hdiv : (16 * hexValue a + hexValue b) / 16 = hexValue a := by omega
  have hmod : (16 * hexValue a + hexValue b) % 16 = hexValue b := by omega
  rw [lowerHex, hbyte, hdiv, hmod, hadigit, hbdigit]

theorem lowerHex_byteAt {hex : List Char} (n : ℕ) (hlength : hex.length = 2 * n)
    (hhex : ∀ c ∈ hex, isAsciiHexdigit c = true) :
    (List.range n).flatMap (fun i => lowerHex (byteAt hex i)) = hex.map toAsciiLowercase := by
  induction n generalizing hex with
  | zero =>
    rw [List.length_eq_zero_iff.mp hlength]
    rfl
  | succ n ih =>
    match hex, hlength with
    | a :: b :: rest, hlength =>
      have hrest : rest.length = 2 * n := by
        simp only [List.length_cons] at hlength
        omega
      have hnext : (fun i => lowerHex (byteAt (a :: b :: rest) (i + 1))) =
          fun i => lowerHex (byteAt rest i) := by
        funext i
        rfl
      have hpair := lowerHex_pair (hhex a (by simp)) (hhex b (by simp))
      rw [List.range_succ_eq_map, List.flatMap_cons, List.flatMap_map, hnext,
        ih hrest (fun c hc => hhex c (by simp [hc]))]
      exact congrArg (· ++ rest.map toAsciiLowercase) hpair

/-! ## The canonical shape -/

theorem split_at {l : List Char} {n : ℕ} {c : Char} (h : l[n]? = some c) :
    ∃ front back, l = front ++ c :: back ∧ front.length = n := by
  obtain ⟨hn, hc⟩ := List.getElem?_eq_some_iff.mp h
  refine ⟨l.take n, l.drop (n + 1), ?_, by rw [List.length_take]; omega⟩
  rw [← hc, ← List.drop_eq_getElem_cons hn, List.take_append_drop]

theorem getElem?_behind {front back : List Char} {c : Char} {k n : ℕ} (hk : front.length = k)
    (hn : k < n) : (front ++ c :: back)[n]? = back[n - (k + 1)]? := by
  obtain ⟨m, rfl⟩ := Nat.exists_eq_add_of_lt hn
  rw [List.getElem?_append_right (by omega), hk, Nat.add_assoc, Nat.add_sub_cancel_left,
    List.getElem?_cons_succ]
  congr 1
  omega

theorem grouped_append {a b c d e : List Char} (ha : a.length = 8) (hb : b.length = 4)
    (hc : c.length = 4) (hd : d.length = 4) :
    grouped (a ++ (b ++ (c ++ (d ++ e)))) =
      a ++ '-' :: (b ++ '-' :: (c ++ '-' :: (d ++ '-' :: e))) := by
  have hab : (a ++ b).length = 12 := by rw [List.length_append, ha, hb]
  have habc : ((a ++ b) ++ c).length = 16 := by rw [List.length_append, hab, hc]
  have habcd : (((a ++ b) ++ c) ++ d).length = 20 := by rw [List.length_append, habc, hd]
  have hdrop : ∀ (front back : List Char) {n : ℕ}, front.length = n →
      (front ++ back).drop n = back := fun _ _ _ h => List.drop_left' h
  have htake : ∀ (front back : List Char) {n : ℕ}, front.length = n →
      (front ++ back).take n = front := fun _ _ _ h => List.take_left' h
  unfold grouped
  rw [htake a _ ha, hdrop a _ ha, htake b _ hb]
  rw [← List.append_assoc a, hdrop (a ++ b) _ hab, htake c _ hc]
  rw [← List.append_assoc (a ++ b), hdrop ((a ++ b) ++ c) _ habc, htake d _ hd]
  rw [← List.append_assoc ((a ++ b) ++ c), hdrop (((a ++ b) ++ c) ++ d) _ habcd]
  simp

/-- Every list of thirty-two is made of five such groups. -/
theorem exists_groups {hex : List Char} (h : hex.length = 32) :
    ∃ a b c d e : List Char, hex = a ++ (b ++ (c ++ (d ++ e))) ∧ a.length = 8 ∧ b.length = 4 ∧
      c.length = 4 ∧ d.length = 4 := by
  refine ⟨hex.take 8, (hex.drop 8).take 4, ((hex.drop 8).drop 4).take 4,
    (((hex.drop 8).drop 4).drop 4).take 4, (((hex.drop 8).drop 4).drop 4).drop 4, ?_, ?_⟩
  · simp only [List.take_append_drop]
  · simp [h]

/-- Thirty-six characters with hyphens at the four positions and thirty-two digits are the digits in
their groups. -/
theorem eq_grouped {l : List Char} (hlength : l.length = 36)
    (hyphens : ∀ position ∈ canonicalHyphenPositions, l[position]? = some '-')
    (hdigits : (l.filter (fun c => c ≠ '-')).length = 32) :
    l = grouped (l.filter (fun c => c ≠ '-')) := by
  obtain ⟨a, back, rfl, ha⟩ := split_at (hyphens 8 (by decide))
  have hnext := hyphens 13 (by decide)
  rw [getElem?_behind ha (by decide)] at hnext
  obtain ⟨b, back, rfl, hb⟩ := split_at (n := 4) hnext
  have hnext := hyphens 18 (by decide)
  rw [getElem?_behind ha (by decide), getElem?_behind hb (by decide)] at hnext
  obtain ⟨c, back, rfl, hc⟩ := split_at (n := 4) hnext
  have hnext := hyphens 23 (by decide)
  rw [getElem?_behind ha (by decide), getElem?_behind hb (by decide),
    getElem?_behind hc (by decide)] at hnext
  obtain ⟨d, e, rfl, hd⟩ := split_at (n := 4) hnext
  -- no further hyphen: the filter would leave fewer than thirty-two characters
  have he : e.length = 12 := by
    simp only [List.length_append, List.length_cons, ha, hb, hc, hd] at hlength
    omega
  have hfilter : (a ++ '-' :: (b ++ '-' :: (c ++ '-' :: (d ++ '-' :: e)))).filter
      (fun c => c ≠ '-') = a.filter (fun c => c ≠ '-') ++ (b.filter (fun c => c ≠ '-') ++
        (c.filter (fun c => c ≠ '-') ++ (d.filter (fun c => c ≠ '-') ++
          e.filter (fun c => c ≠ '-')))) := by
    simp [List.filter_append]
  have hle : ∀ l : List Char, (l.filter (fun c => c ≠ '-')).length ≤ l.length :=
    fun l => List.length_filter_le _ l
  have hself : ∀ l : List Char, l.length ≤ (l.filter (fun c => c ≠ '-')).length →
      l.filter (fun c => c ≠ '-') = l := fun l h => List.filter_sublist.eq_of_length_le h
  rw [hfilter] at hdigits ⊢
  simp only [List.length_append] at hdigits
  have hla := hle a
  have hlb := hle b
  have hlc := hle c
  have hld := hle d
  have hle := hle e
  rw [hself a (by omega), hself b (by omega), hself c (by omega), hself d (by omega),
    hself e (by omega), grouped_append ha hb hc hd]

theorem grouped_filter {hex : List Char} (h : hex.length = 32) (hne : ∀ c ∈ hex, c ≠ '-') :
    (grouped hex).filter (fun c => c ≠ '-') = hex := by
  obtain ⟨a, b, c, d, e, rfl, ha, hb, hc, hd⟩ := exists_groups h
  have hself : ∀ l : List Char, (∀ c ∈ l, c ≠ '-') → l.filter (fun c => c ≠ '-') = l :=
    fun l hl => List.filter_eq_self.mpr (fun c hc => by simpa using hl c hc)
  simp only [List.forall_mem_append] at hne
  obtain ⟨hna, hnb, hnc, hnd, hne⟩ := hne
  have hyphen : decide ('-' ≠ '-') = false := by decide
  rw [grouped_append ha hb hc hd]
  simp only [List.filter_append, List.filter_cons, hyphen, Bool.false_eq_true, if_false]
  rw [hself a hna, hself b hnb, hself c hnc, hself d hnd, hself e hne]

theorem hyphens_grouped {hex : List Char} (h : hex.length = 32) :
    ∀ position ∈ canonicalHyphenPositions, (grouped hex)[position]? = some '-' := by
  obtain ⟨a, b, c, d, e, rfl, ha, hb, hc, hd⟩ := exists_groups h
  have hat : ∀ {front back : List Char} {k n : ℕ}, front.length = k → n = k →
      (front ++ '-' :: back)[n]? = some '-' := by
    intro front back k n hk hn
    rw [hn, ← hk]
    exact List.getElem?_append_right (Nat.le_refl _) |>.trans (by rw [Nat.sub_self]; rfl)
  rw [grouped_append ha hb hc hd]
  intro position hposition
  simp only [canonicalHyphenPositions, List.mem_cons, List.not_mem_nil, or_false] at hposition
  rcases hposition with rfl | rfl | rfl | rfl
  · exact hat ha rfl
  · rw [getElem?_behind ha (by decide)]
    exact hat hb rfl
  · rw [getElem?_behind ha (by decide), getElem?_behind hb (by decide)]
    exact hat hc rfl
  · rw [getElem?_behind ha (by decide), getElem?_behind hb (by decide),
      getElem?_behind hc (by decide)]
    exact hat hd rfl

/-! ## What the parser accepts -/

/-- A text that spells these digits: in a row or in their groups. -/
def Spells (input : String) (hex : List Char) : Prop :=
  Digits hex ∧ (input.toList = hex ∨ input.toList = grouped hex)

section
variable {input : String} {hex : List Char}

theorem Digits.ne_hyphen (h : Digits hex) : ∀ c ∈ hex, c ≠ '-' :=
  fun c hc => (hexdigit_spec (h.hexdigits c hc)).2.2

theorem Digits.ascii (h : Digits hex) : ∀ c ∈ hex, c.toNat < 128 :=
  fun c hc => ascii_of_hexdigit (h.hexdigits c hc)

theorem Spells.digits (h : Spells input hex) : EntityId.digits input = hex := by
  obtain ⟨hhex, heq | heq⟩ := h
  · unfold EntityId.digits
    rw [heq, List.filter_eq_self]
    exact fun c hc => by simpa using hhex.ne_hyphen c hc
  · unfold EntityId.digits
    rw [heq, grouped_filter hhex.length hhex.ne_hyphen]

/-- A text of hexadecimal digits and hyphens is ASCII: a character is a byte. -/
theorem bytes_of_digits (h : ∀ c ∈ input.toList, c = '-' ∨ isAsciiHexdigit c = true) :
    input.toUTF8.data.toList = input.toList.map (fun c => c.val.toUInt8) ∧
      input.utf8ByteSize = input.toList.length := by
  have hascii : ∀ c ∈ input.toList, c.toNat < 128 := by
    intro c hc
    rcases h c hc with rfl | hc
    · decide
    · exact ascii_of_hexdigit hc
  have hbytes := bytes_ascii hascii
  have hsize := size_ascii hascii
  rw [String.ofList_toList] at hbytes hsize
  exact ⟨hbytes, hsize⟩

/-- The byte of a hyphen stands where a hyphen stands. -/
theorem hyphen_byte (h : ∀ c ∈ input.toList, c = '-' ∨ isAsciiHexdigit c = true) (position : ℕ) :
    input.toUTF8.data.toList.getD position 0 = 45 ↔ input.toList[position]? = some '-' := by
  rw [(bytes_of_digits h).1, List.getD_eq_getElem?_getD, List.getElem?_map]
  cases hget : input.toList[position]? with
  | none => simp
  | some c =>
    have hc := h c (List.mem_of_getElem? hget)
    simp only [Option.map_some, Option.getD_some, Option.some.injEq]
    constructor
    · intro hbyte
      refine hc.resolve_right (fun hhex => ?_)
      have hne : ∀ n : Fin 128, isAsciiHexdigit (Char.ofNat n) = true →
          (Char.ofNat n).val.toUInt8 ≠ 45 := by decide +kernel
      exact forall_ascii (P := fun c => isAsciiHexdigit c = true → c.val.toUInt8 ≠ 45) hne
        (ascii_of_hexdigit hhex) hhex hbyte
    · rintro rfl
      rfl

theorem hexDigits_of_spells (h : Spells input hex) : hexDigits input = some hex := by
  obtain ⟨hhex, heq | heq⟩ := h
  · have hchars : ∀ c ∈ input.toList, c = '-' ∨ isAsciiHexdigit c = true := by
      rw [heq]
      exact fun c hc => .inr (hhex.hexdigits c hc)
    unfold hexDigits
    rw [if_pos (by rw [(bytes_of_digits hchars).2, heq, hhex.length]), heq]
  · have hchars : ∀ c ∈ input.toList, c = '-' ∨ isAsciiHexdigit c = true := by
      intro c hc
      by_cases hyphen : c = '-'
      · exact .inl hyphen
      · refine .inr (hhex.hexdigits c ?_)
        rw [← grouped_filter hhex.length hhex.ne_hyphen, ← heq]
        exact List.mem_filter.mpr ⟨hc, by simpa using hyphen⟩
    have hlength : input.toList.length = 36 := by
      obtain ⟨a, b, c, d, e, rfl, ha, hb, hc, hd⟩ := exists_groups hhex.length
      have htotal := hhex.length
      rw [heq, grouped_append ha hb hc hd]
      simp only [List.length_append, List.length_cons] at htotal ⊢
      omega
    have hsize : input.utf8ByteSize = 36 := by rw [(bytes_of_digits hchars).2, hlength]
    have hyphens : canonicalHyphenPositions.any (fun position =>
        input.toUTF8.data.toList.getD position 0 ≠ 45) = false := by
      rw [List.any_eq_false]
      intro position hposition
      have hget := hyphens_grouped hhex.length position hposition
      rw [← heq, ← hyphen_byte hchars] at hget
      rw [hget]
      decide
    unfold hexDigits
    rw [if_neg (by omega), if_pos hsize, hyphens, heq]
    simp only [Bool.false_eq_true, if_false, Option.some.injEq]
    exact grouped_filter hhex.length hhex.ne_hyphen

theorem spells_of_hexDigits (h : hexDigits input = some hex) (hhex : Digits hex) :
    Spells input hex := by
  refine ⟨hhex, ?_⟩
  unfold hexDigits at h
  split at h
  · cases h
    exact .inl rfl
  · split at h
    · rename_i hsize
      split at h
      · cases h
      · rename_i hyphens
        rw [Option.some.injEq] at h
        have hchars : ∀ c ∈ input.toList, c = '-' ∨ isAsciiHexdigit c = true := by
          intro c hc
          by_cases hyphen : c = '-'
          · exact .inl hyphen
          · refine .inr (hhex.hexdigits c ?_)
            rw [← h]
            exact List.mem_filter.mpr ⟨hc, by simpa using hyphen⟩
        have hlength : input.toList.length = 36 := by rw [← (bytes_of_digits hchars).2, hsize]
        refine .inr ?_
        rw [← h]
        refine eq_grouped hlength (fun position hposition => ?_) (by rw [h, hhex.length])
        rw [← hyphen_byte hchars]
        by_contra hbyte
        exact hyphens (List.any_eq_true.mpr ⟨position, hposition, by simpa using hbyte⟩)
    · cases h

/-- The id of a list of digits. -/
def ofDigits (hex : List Char) : EntityId :=
  ⟨Vector.ofFn (fun index : Fin 16 => byteAt hex index)⟩

/-- **What the parser accepts**, and what it makes of it. -/
theorem parse_ok_iff {id : EntityId} :
    parse input = .ok id ↔ ∃ hex, Spells input hex ∧ id = ofDigits hex := by
  unfold parse
  constructor
  · intro h
    cases hdigits : hexDigits input with
    | none =>
      rw [hdigits] at h
      cases h
    | some hex =>
      rw [hdigits] at h
      simp only at h
      split at h
      · cases h
      · rename_i hok
        rw [not_or, not_not] at hok
        have hall : ∀ c ∈ hex, isAsciiHexdigit c = true := by simpa using hok.2
        have hlength := hok.1
        rw [size_ascii (fun c hc => ascii_of_hexdigit (hall c hc))] at hlength
        cases h
        exact ⟨hex, spells_of_hexDigits hdigits ⟨hlength, hall⟩, rfl⟩
  · rintro ⟨hex, hspells, rfl⟩
    have hhex := hspells.1
    have hsize : (String.ofList hex).utf8ByteSize = 32 := by
      rw [size_ascii hhex.ascii, hhex.length]
    have hall : hex.all isAsciiHexdigit = true := List.all_eq_true.mpr hhex.hexdigits
    rw [hexDigits_of_spells hspells]
    simp only [hsize, hall, ne_eq, not_true_eq_false, Bool.not_true, Bool.false_eq_true, or_self,
      if_false]
    rfl

/-! ## What is displayed -/

theorem lowerHex_ofDigits (h : Digits hex) :
    (ofDigits hex).bytes.toList.flatMap lowerHex = hex.map toAsciiLowercase := by
  have hbytes : (ofDigits hex).bytes.toList = (List.range 16).map (byteAt hex) := by
    rw [ofDigits, Vector.toList_ofFn]
    rfl
  rw [hbytes, List.flatMap_map]
  exact lowerHex_byteAt 16 h.length h.hexdigits

/-- `Display` writes the digits in their groups. -/
theorem toText_eq (id : EntityId) :
    id.toText.toList = grouped (id.bytes.toList.flatMap lowerHex) := by
  obtain ⟨a, b, c, d, e, f, g, h, i, j, k, l, m, n, o, p, hbytes⟩ := id.bytes_cases
  rw [toText, String.toList_ofList, hbytes]
  rfl

theorem digits_injective {id id' : EntityId}
    (h : id.bytes.toList.flatMap lowerHex = id'.bytes.toList.flatMap lowerHex) : id = id' := by
  have htext : id.toText = id'.toText := by
    apply String.toList_inj.mp
    rw [toText_eq, toText_eq, h]
  have hparse := parse_toText id
  rw [htext, parse_toText, Except.ok.injEq] at hparse
  exact hparse.symm

end

end EntityId

open EntityId in
/-- **Entity id text is canonical.** -/
theorem entity_id_text_canonical :
    (∀ input, parseIndexed input = some (parse input)) ∧
      (∀ input, (∃ id, parse input = .ok id) ↔ ∃ hex, hex.length = 32 ∧
        (∀ c ∈ hex, isAsciiHexdigit c = true) ∧
          (input.toList = hex ∨ input.toList = grouped hex)) ∧
      (∀ id : EntityId, parse id.toText = .ok id) ∧
      (∀ input id, parse input = .ok id →
        id.toText.toList = grouped ((digits input).map toAsciiLowercase)) ∧
      ∀ input input' id id', parse input = .ok id → parse input' = .ok id' →
        (id = id' ↔ (digits input).map toAsciiLowercase = (digits input').map toAsciiLowercase) := by
  refine ⟨parseIndexed_eq, fun input => ?_, parse_toText, fun input id h => ?_,
    fun input input' id id' h h' => ?_⟩
  · constructor
    · rintro ⟨id, h⟩
      obtain ⟨hex, ⟨hhex, hspelled⟩, -⟩ := parse_ok_iff.mp h
      exact ⟨hex, hhex.length, hhex.hexdigits, hspelled⟩
    · rintro ⟨hex, hlength, hhex, hspelled⟩
      exact ⟨ofDigits hex, parse_ok_iff.mpr ⟨hex, ⟨⟨hlength, hhex⟩, hspelled⟩, rfl⟩⟩
  · obtain ⟨hex, hspells, rfl⟩ := parse_ok_iff.mp h
    rw [toText_eq, lowerHex_ofDigits hspells.1, hspells.digits]
  · obtain ⟨hex, hspells, rfl⟩ := parse_ok_iff.mp h
    obtain ⟨hex', hspells', rfl⟩ := parse_ok_iff.mp h'
    rw [hspells.digits, hspells'.digits, ← lowerHex_ofDigits hspells.1,
      ← lowerHex_ofDigits hspells'.1]
    exact ⟨fun heq => by rw [heq], digits_injective⟩

/-- Both spellings of one id, in either case. -/
theorem entity_id_text_canonical_cases :
    ∃ id id', EntityId.parse "0123456789ABCDEF0123456789ABCDEF" = .ok id ∧
      EntityId.parse "01234567-89ab-cdef-0123-456789abcdef" = .ok id' ∧ id = id' := by
  obtain ⟨-, haccept, -, -, hsame⟩ := entity_id_text_canonical
  obtain ⟨id, hid⟩ := (haccept "0123456789ABCDEF0123456789ABCDEF").mpr
    ⟨"0123456789ABCDEF0123456789ABCDEF".toList, by decide +kernel,
      List.all_iff_forall_prop.mp (by decide +kernel), .inl rfl⟩
  obtain ⟨id', hid'⟩ := (haccept "01234567-89ab-cdef-0123-456789abcdef").mpr
    ⟨"0123456789abcdef0123456789abcdef".toList, by decide +kernel,
      List.all_iff_forall_prop.mp (by decide +kernel), .inr (by decide +kernel)⟩
  exact ⟨id, id', hid, hid', (hsame _ _ id id' hid hid').mpr (by decide +kernel)⟩

end Summoners
