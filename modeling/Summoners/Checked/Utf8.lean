import Mathlib.Data.List.Basic
import Mathlib.Tactic.Common

/-! # UTF-8

The bytes of a text and the text of bytes. A byte below 128 is the byte of an ASCII character, and an
ASCII character has no other byte.
-/

namespace Checked
set_option autoImplicit false

/-- `str::as_bytes`. -/
def bytesOf (text : String) : List UInt8 := text.toUTF8.data.toList

/-- `str::from_utf8`. -/
def fromUtf8 (bytes : List UInt8) : Option String := String.fromUTF8? ⟨bytes.toArray⟩

theorem bytesOf_eq (text : String) : bytesOf text = text.toList.flatMap String.utf8EncodeChar := by
  have hbytes : text.toUTF8 = (String.ofList text.toList).toUTF8 := by rw [String.ofList_toList]
  rw [bytesOf, hbytes, String.toUTF8_eq_toByteArray, String.toByteArray_ofList, List.utf8Encode]
  simp

theorem bytesOf_ofList (characters : List Char) :
    bytesOf (String.ofList characters) = characters.flatMap String.utf8EncodeChar := by
  rw [bytesOf_eq, String.toList_ofList]

theorem fromUtf8_bytesOf (text : String) : fromUtf8 (bytesOf text) = some text := by
  have hbytes : (⟨(bytesOf text).toArray⟩ : ByteArray) = text.toByteArray := rfl
  unfold fromUtf8 String.fromUTF8?
  rw [hbytes, dif_pos text.isValidUTF8]
  rfl

theorem bytesOf_of_fromUtf8 {bytes : List UInt8} {text : String} (h : fromUtf8 bytes = some text) :
    bytesOf text = bytes := by
  unfold fromUtf8 String.fromUTF8? at h
  split at h
  · cases h
    rfl
  · cases h

theorem fromUtf8_eq_some {bytes : List UInt8} {text : String} :
    fromUtf8 bytes = some text ↔ bytesOf text = bytes := by
  constructor
  · exact bytesOf_of_fromUtf8
  · rintro rfl
    exact fromUtf8_bytesOf text

theorem bytesOf_injective {text text' : String} (h : bytesOf text = bytesOf text') :
    text = text' := by
  have hsome := fromUtf8_bytesOf text
  rw [h, fromUtf8_bytesOf, Option.some.injEq] at hsome
  exact hsome.symm

/-! ## ASCII -/

/-- What holds of the ASCII characters, by looking at them. -/
theorem forall_ascii {P : Char → Prop} [DecidablePred P]
    (h : ∀ n : Fin 128, P (Char.ofNat n)) {c : Char} (hc : c.toNat < 128) : P c := by
  have hP := h ⟨c.toNat, hc⟩
  rwa [Char.ofNat_toNat] at hP

theorem utf8EncodeChar_ascii {c : Char} (h : c.toNat < 128) :
    String.utf8EncodeChar c = [c.toUInt8] := by
  have hle : c.val ≤ 127 := by
    rw [UInt32.le_iff_toNat_le]
    exact Nat.le_of_lt_succ h
  exact String.utf8EncodeChar_eq_singleton (if_pos hle)

/-- No byte of a character beyond ASCII is an ASCII byte. -/
theorem le_of_mem_utf8EncodeChar {c : Char} (h : 128 ≤ c.toNat) {byte : UInt8}
    (hb : byte ∈ String.utf8EncodeChar c) : 128 ≤ byte.toNat := by
  have hval : c.val.toNat = c.toNat := rfl
  have hlt : c.toNat < 1114112 := by
    rcases c.valid with hv | ⟨-, hv⟩
    · exact Nat.lt_trans hv (by decide)
    · exact hv
  have hbyte : ∀ n : ℕ, 128 ≤ n → n < 256 → 128 ≤ (UInt8.ofNat n).toNat := by
    intro n hn hn'
    rw [UInt8.toNat_ofNat', Nat.mod_eq_of_lt hn']
    exact hn
  unfold String.utf8EncodeChar at hb
  simp only [hval] at hb
  split at hb
  · omega
  · split at hb
    · simp only [List.mem_cons, List.not_mem_nil, or_false] at hb
      rcases hb with rfl | rfl <;> apply hbyte <;> omega
    · split at hb
      · simp only [List.mem_cons, List.not_mem_nil, or_false] at hb
        rcases hb with rfl | rfl | rfl <;> apply hbyte <;> omega
      · simp only [List.mem_cons, List.not_mem_nil, or_false] at hb
        rcases hb with rfl | rfl | rfl | rfl <;> apply hbyte <;> omega

theorem toNat_toUInt8 {c : Char} (h : c.toNat < 128) : c.toUInt8.toNat = c.toNat := by
  have hval : c.toUInt8.toNat = c.toNat % 256 := rfl
  rw [hval]
  omega

/-- The byte of an ASCII character is found among the bytes where the character is. -/
theorem toUInt8_mem_bytesOf {text : String} {c : Char} (h : c.toNat < 128) :
    c.toUInt8 ∈ bytesOf text ↔ c ∈ text.toList := by
  rw [bytesOf_eq, List.mem_flatMap]
  constructor
  · rintro ⟨d, hd, hbyte⟩
    by_cases hascii : d.toNat < 128
    · rw [utf8EncodeChar_ascii hascii, List.mem_singleton] at hbyte
      have hnat := congrArg UInt8.toNat hbyte
      rw [toNat_toUInt8 h, toNat_toUInt8 hascii] at hnat
      rwa [← Char.ofNat_toNat c, hnat, Char.ofNat_toNat]
    · have hle := le_of_mem_utf8EncodeChar (Nat.le_of_not_lt hascii) hbyte
      rw [toNat_toUInt8 h] at hle
      omega
  · intro hc
    exact ⟨c, hc, by rw [utf8EncodeChar_ascii h]; exact List.mem_singleton_self _⟩

theorem flatMap_utf8EncodeChar_ascii {characters : List Char}
    (h : ∀ c ∈ characters, c.toNat < 128) :
    characters.flatMap String.utf8EncodeChar = characters.map Char.toUInt8 := by
  induction characters with
  | nil => rfl
  | cons c characters ih =>
    rw [List.flatMap_cons, utf8EncodeChar_ascii (h c List.mem_cons_self),
      ih (fun d hd => h d (List.mem_cons_of_mem _ hd))]
    rfl

theorem bytesOf_ascii {text : String} (h : ∀ c ∈ text.toList, c.toNat < 128) :
    bytesOf text = text.toList.map Char.toUInt8 := by
  rw [bytesOf_eq, flatMap_utf8EncodeChar_ascii h]

/-- A text whose bytes are ASCII is ASCII. -/
theorem ascii_of_bytesOf {text : String} (h : ∀ byte ∈ bytesOf text, byte.toNat < 128) :
    ∀ c ∈ text.toList, c.toNat < 128 := by
  intro c hc
  by_contra hn
  have hne : String.utf8EncodeChar c ≠ [] := String.utf8EncodeChar_ne_nil
  obtain ⟨byte, hbyte⟩ := List.exists_mem_of_ne_nil _ hne
  have hlt := h byte (by
    rw [bytesOf_eq]
    exact List.mem_flatMap.mpr ⟨c, hc, hbyte⟩)
  have hle := le_of_mem_utf8EncodeChar (Nat.le_of_not_lt hn) hbyte
  omega

end Checked
