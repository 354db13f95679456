import Summoners.Domain.Cards

/-! # The text of an entity id

`EntityId::parse` and `Display` of `domain/cards/entity.rs`: a bare string of 32 hexadecimal digits,
or the canonical shape with hyphens at four fixed byte positions, which is the one that is written.
-/

namespace Summoners
set_option autoImplicit false

structure EntityIdParseError where
  input : String
  deriving DecidableEq

namespace EntityId

/-- `CANONICAL_HYPHEN_POSITIONS`. -/
def canonicalHyphenPositions : List ℕ := [8, 13, 18, 23]

/-- `char::is_ascii_hexdigit`. -/
def isAsciiHexdigit (c : Char) : Bool :=
  let n := c.toNat
  (48 ≤ n && n ≤ 57) || (65 ≤ n && n ≤ 70) || (97 ≤ n && n ≤ 102)

/-- The value of one hexadecimal digit. -/
def hexValue (c : Char) : ℕ :=
  let n := c.toNat
  if n ≤ 57 then n - 48 else if n ≤ 70 then n - 55 else n - 87

/-- `u8::from_str_radix(pair, 16)` on the pair of digits of one byte. -/
def byteAt (hex : List Char) (index : ℕ) : UInt8 :=
  UInt8.ofNat (16 * hexValue (hex.getD (2 * index) '0') + hexValue (hex.getD (2 * index + 1) '0'))

/-- The digits of an accepted length and shape. -/
def hexDigits (input : String) : Option (List Char) :=
  if input.utf8ByteSize = 32 then some input.toList
  else if input.utf8ByteSize = 36 then
    if canonicalHyphenPositions.any (fun position =>
        input.toUTF8.data.toList.getD position 0 ≠ 45) then none
    else some (input.toList.filter (fun c => c ≠ '-'))
  else none

def parse (input : String) : Except EntityIdParseError EntityId :=
  match hexDigits input with
  | none => .error ⟨input⟩
  | some hex =>
      if (String.ofList hex).utf8ByteSize ≠ 32 ∨ !hex.all isAsciiHexdigit then .error ⟨input⟩
      else .ok ⟨Vector.ofFn (fun index : Fin 16 => byteAt hex index)⟩

/-- A digit of `{:02x}`. -/
def hexDigit (n : ℕ) : Char := if n < 10 then Char.ofNat (48 + n) else Char.ofNat (87 + n)

/-- `{:02x}`. -/
def lowerHex (byte : UInt8) : List Char := [hexDigit (byte.toNat / 16), hexDigit (byte.toNat % 16)]

/-- The hyphenated groups of `Display`, of a list of sixteen bytes. -/
def hyphenated : List UInt8 → List Char
  | [a, b, c, d, e, f, g, h, i, j, k, l, m, n, o, p] =>
      [a, b, c, d].flatMap lowerHex ++ '-' :: [e, f].flatMap lowerHex ++
        '-' :: [g, h].flatMap lowerHex ++ '-' :: [i, j].flatMap lowerHex ++
        '-' :: [k, l, m, n, o, p].flatMap lowerHex
  | _ => []

/-- `to_string`. -/
def toText (id : EntityId) : String := String.ofList (hyphenated id.bytes.toList)

/-! ## What is written parses back -/

/-- The bytes of an ASCII text. -/
theorem bytes_ascii {l : List Char} (h : ∀ c ∈ l, c.toNat < 128) :
    (String.ofList l).toUTF8.data.toList = l.map (fun c => c.val.toUInt8) := by
  have hflat : l.flatMap String.utf8EncodeChar = l.map (fun c => c.val.toUInt8) := by
    induction l with
    | nil => rfl
    | cons c l ih =>
        have hsize : c.utf8Size = 1 := by
          have hc := h c List.mem_cons_self
          have hle : c.val ≤ 127 := by
            rw [UInt32.le_iff_toNat_le]
            exact Nat.le_of_lt_succ hc
          exact if_pos hle
        rw [List.flatMap_cons, List.map_cons, String.utf8EncodeChar_eq_singleton hsize,
          ih (fun c hc => h c (List.mem_cons_of_mem _ hc))]
        rfl
  rw [String.toUTF8_eq_toByteArray, String.toByteArray_ofList, List.utf8Encode, hflat]
  simp

theorem size_ascii {l : List Char} (h : ∀ c ∈ l, c.toNat < 128) :
    (String.ofList l).utf8ByteSize = l.length := by
  have hb := congrArg List.length (bytes_ascii h)
  rw [List.length_map] at hb
  exact hb

theorem hexDigit_spec {n : ℕ} (h : n < 16) : (hexDigit n).toNat < 128 ∧
    isAsciiHexdigit (hexDigit n) = true ∧ hexValue (hexDigit n) = n ∧ hexDigit n ≠ '-' := by
  have hall : ∀ m : Fin 16, (hexDigit m).toNat < 128 ∧ isAsciiHexdigit (hexDigit m) = true ∧
      hexValue (hexDigit m) = m ∧ hexDigit m ≠ '-' := by decide
  exact hall ⟨n, h⟩

/-- Both digits of a byte. -/
theorem hex_high (b : UInt8) : b.toNat / 16 < 16 := by
  have hb := b.toNat_lt
  omega

theorem hex_low (b : UInt8) : b.toNat % 16 < 16 := Nat.mod_lt _ (by decide)

theorem hex_value (b : UInt8) : UInt8.ofNat (16 * hexValue (hexDigit (b.toNat / 16)) +
    hexValue (hexDigit (b.toNat % 16))) = b := by
  rw [(hexDigit_spec (hex_high b)).2.2.1, (hexDigit_spec (hex_low b)).2.2.1, Nat.div_add_mod]
  exact UInt8.ofNat_toNat

theorem bytes_cases (id : EntityId) : ∃ a b c d e f g h i j k l m n o p : UInt8,
    id.bytes.toList = [a, b, c, d, e, f, g, h, i, j, k, l, m, n, o, p] := by
  have hlength : id.bytes.toList.length = 16 := by simp
  match id.bytes.toList, hlength with
  | [a, b, c, d, e, f, g, h, i, j, k, l, m, n, o, p], _ =>
      exact ⟨a, b, c, d, e, f, g, h, i, j, k, l, m, n, o, p, rfl⟩

theorem lowerHex_ascii (b : UInt8) : ∀ c ∈ lowerHex b, c.toNat < 128 := by
  intro c hc
  simp only [lowerHex, List.mem_cons, List.not_mem_nil, or_false] at hc
  obtain rfl | rfl := hc
  · exact (hexDigit_spec (hex_high b)).1
  · exact (hexDigit_spec (hex_low b)).1

theorem filter_lowerHex (b : UInt8) :
    (lowerHex b).filter (fun c => !decide (c = '-')) = lowerHex b := by
  simp [lowerHex, (hexDigit_spec (hex_high b)).2.2.2, (hexDigit_spec (hex_low b)).2.2.2]

theorem hyphenated_ascii (bytes : List UInt8) : ∀ c ∈ hyphenated bytes, c.toNat < 128 := by
  have hrun : ∀ l : List UInt8, ∀ c ∈ l.flatMap lowerHex, c.toNat < 128 := by
    intro l c hc
    obtain ⟨b, -, hb⟩ := List.mem_flatMap.mp hc
    exact lowerHex_ascii b c hb
  unfold hyphenated
  split
  · simp only [List.forall_mem_append, List.forall_mem_cons]
    have hyphen : '-'.toNat < 128 := by decide
    exact ⟨⟨⟨⟨hrun _, hyphen, hrun _⟩, hyphen, hrun _⟩, hyphen, hrun _⟩, hyphen, hrun _⟩
  · simp

/-- The digits of the sixteen bytes in a row. -/
theorem hexDigits_toText (id : EntityId) :
    hexDigits id.toText = some (id.bytes.toList.flatMap lowerHex) := by
  obtain ⟨a, b, c, d, e, f, g, h, i, j, k, l, m, n, o, p, hbytes⟩ := id.bytes_cases
  have hsize : id.toText.utf8ByteSize = 36 := by
    rw [toText, size_ascii (hyphenated_ascii _), hbytes]
    rfl
  have hyphens : canonicalHyphenPositions.any (fun position =>
      id.toText.toUTF8.data.toList.getD position 0 ≠ 45) = false := by
    rw [toText, bytes_ascii (hyphenated_ascii _), hbytes]
    rfl
  unfold hexDigits
  rw [if_neg (by rw [hsize]; decide), if_pos hsize, hyphens, toText, hbytes, String.toList_ofList]
  simp [hyphenated, filter_lowerHex]

/-- Two digits for each byte. -/
theorem byteAt_lowerHex {bytes : List UInt8} {i : ℕ} (h : i < bytes.length) :
    byteAt (bytes.flatMap lowerHex) i = bytes[i] := by
  have hdigits : (bytes.flatMap lowerHex).getD (2 * i) '0' = hexDigit (bytes[i].toNat / 16) ∧
      (bytes.flatMap lowerHex).getD (2 * i + 1) '0' = hexDigit (bytes[i].toNat % 16) := by
    induction bytes generalizing i with
    | nil => cases h
    | cons b bytes ih =>
        cases i with
        | zero => exact ⟨rfl, rfl⟩
        | succ i => exact ih (Nat.lt_of_succ_lt_succ h)
  unfold byteAt
  rw [hdigits.1, hdigits.2]
  exact hex_value _

/-- **Text that was written parses back.** -/
theorem parse_toText (id : EntityId) : parse id.toText = .ok id := by
  have hrun : ∀ c ∈ id.bytes.toList.flatMap lowerHex, c.toNat < 128 ∧ isAsciiHexdigit c = true := by
    intro c hc
    obtain ⟨b, -, hb⟩ := List.mem_flatMap.mp hc
    simp only [lowerHex, List.mem_cons, List.not_mem_nil, or_false] at hb
    obtain rfl | rfl := hb
    · exact ⟨(hexDigit_spec (hex_high b)).1, (hexDigit_spec (hex_high b)).2.1⟩
    · exact ⟨(hexDigit_spec (hex_low b)).1, (hexDigit_spec (hex_low b)).2.1⟩
  have hsize : (String.ofList (id.bytes.toList.flatMap lowerHex)).utf8ByteSize = 32 := by
    rw [size_ascii (fun c hc => (hrun c hc).1), List.length_flatMap]
    simp [lowerHex, List.map_const']
  have hall : (id.bytes.toList.flatMap lowerHex).all isAsciiHexdigit = true :=
    List.all_eq_true.mpr (fun c hc => (hrun c hc).2)
  unfold parse
  rw [hexDigits_toText]
  simp only [hsize, hall, ne_eq, not_true_eq_false, Bool.not_true, Bool.false_eq_true, or_self,
    if_false]
  congr 1
  obtain ⟨bytes⟩ := id
  congr 1
  ext i hi
  rw [Vector.getElem_ofFn, byteAt_lowerHex (by simpa using hi), Vector.getElem_toList]

end EntityId

end Summoners
