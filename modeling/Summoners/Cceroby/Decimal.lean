import Mathlib.Data.Bool.AllAny
import Mathlib.Data.Int.Notation
import Summoners.Cceroby.ArtworkKey

/-! # Decimal texts

`to_string` of an integer is read back by `str::parse`, and is a safe identifier. Cursors and
numeric identifiers travel in this form.
-/

namespace Summoners.Cceroby
set_option autoImplicit false

open Checked

variable {max n : ℕ}

theorem mem_toString_digit {c : Char} (h : c ∈ (toString n).toList) : c.isDigit = true := by
  rw [Nat.toString_eq_repr, Nat.toList_repr] at h
  exact Nat.isDigit_of_mem_toDigits (by decide) (by decide) h

/-- A text of digits is read as the number they spell. -/
theorem parseUnsigned_digits {text : String} (hne : text ≠ "")
    (hdigits : ∀ c ∈ text.toList, c.isDigit = true) :
    parseUnsigned max text =
      if Nat.ofDigitChars 10 text.toList 0 ≤ max then some (Nat.ofDigitChars 10 text.toList 0)
      else none := by
  have hempty : text.toList.isEmpty = false := by
    rw [List.isEmpty_eq_false_iff]
    intro h
    exact hne (String.toList_eq_nil_iff.mp h)
  unfold parseUnsigned
  split
  next digits h =>
    have hplus := hdigits '+' (by rw [h]; exact List.mem_cons_self)
    exact absurd hplus (by decide)
  · simp only [hempty, Bool.not_false, Bool.true_and, List.all_eq_true.mpr hdigits,
      decide_eq_true_eq]
    rfl

theorem parseUnsigned_toString : parseUnsigned max (toString n) = if n ≤ max then some n else none := by
  rw [parseUnsigned_digits (by rw [Nat.toString_eq_repr]; exact Nat.repr_ne_empty)
    (fun _ hc => mem_toString_digit hc), Nat.toString_eq_repr, Nat.toList_repr,
    Nat.ofDigitChars_ten_toDigits]

theorem parseUnsigned_le {text : String} (h : parseUnsigned max text = some n) : n ≤ max := by
  have hread : ∀ (digits : Bool) (value : ℕ),
      (if (digits && decide (value ≤ max)) = true then some value else none) = some n → n ≤ max := by
    intro digits value hvalue
    split at hvalue
    next hparsed =>
      rw [← Option.some.inj hvalue]
      exact of_decide_eq_true (Bool.and_eq_true_iff.mp hparsed).2
    · cases hvalue
  exact hread _ _ h

/-- A minus sign is no digit. -/
theorem parseUnsigned_negative {z : ℤ} (h : z < 0) : parseUnsigned max (toString z) = none := by
  obtain ⟨k, rfl⟩ := Int.eq_negSucc_of_lt_zero h
  have htext : (toString (Int.negSucc k)).toList = '-' :: (toString (k + 1)).toList := by
    show ("-" ++ Nat.repr (k + 1)).toList = _
    rw [String.toList_append]
    rfl
  unfold parseUnsigned
  rw [htext]
  simp

/-- A number of 64 bits is a safe text. -/
theorem safeText_toString (h : n ≤ u64Max) : SafeText (toString n) := by
  have hascii : ∀ c ∈ (toString n).toList, 48 ≤ c.toNat ∧ c.toNat ≤ 57 := by
    intro c hc
    have hdigit := mem_toString_digit hc
    simp only [Char.isDigit, Bool.and_eq_true, decide_eq_true_eq] at hdigit
    exact hdigit
  have hplain : ∀ c ∈ (toString n).toList, c.toNat < 128 := by
    intro c hc
    have := hascii c hc
    omega
  refine ⟨by rw [Nat.toString_eq_repr]; exact Nat.repr_ne_empty, ?_, fun c hc => ?_⟩
  · have hsize : (toString n).utf8ByteSize = (toString n).length := by
      have hlength := congrArg List.length (bytesOf_ascii hplain)
      rw [List.length_map] at hlength
      exact hlength
    have hdigits : (toString n).length ≤ 20 := by
      rw [Nat.toString_eq_repr, Nat.length_repr_le_iff (by decide)]
      unfold u64Max at h
      omega
    rw [hsize]
    unfold maxObjectIdLength
    omega
  · have hc := hascii c hc
    constructor
    · simp only [isControl, Bool.or_eq_false_iff, Bool.and_eq_false_iff, decide_eq_false_iff_not]
      omega
    · unfold isReserved
      rw [List.contains_eq_mem, decide_eq_false_iff_not]
      intro hmem
      have hmark : ∀ d ∈ ['/', '\\', '?', '#', '&', '=', '%'], ¬(48 ≤ d.toNat ∧ d.toNat ≤ 57) :=
        List.all_iff_forall_prop.mp (by decide)
      exact hmark c hmem hc

end Summoners.Cceroby
