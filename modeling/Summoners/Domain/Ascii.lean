import Mathlib.Tactic.Common

/-! # ASCII characters

The ASCII operations on characters of the standard library.
-/

namespace Summoners
set_option autoImplicit false

/-- `char::to_ascii_lowercase`. -/
def toAsciiLowercase (c : Char) : Char :=
  if 65 ≤ c.toNat ∧ c.toNat ≤ 90 then Char.ofNat (c.toNat + 32) else c

/-- `char::is_ascii_alphanumeric`. -/
def isAsciiAlphanumeric (c : Char) : Bool :=
  let n := c.toNat
  (48 ≤ n && n ≤ 57) || (65 ≤ n && n ≤ 90) || (97 ≤ n && n ≤ 122)

theorem toAsciiLowercase_toAsciiLowercase (c : Char) :
    toAsciiLowercase (toAsciiLowercase c) = toAsciiLowercase c := by
  by_cases h : 65 ≤ c.toNat ∧ c.toNat ≤ 90
  · have hvalid : (c.toNat + 32).isValidChar := .inl (by omega)
    have hn : (Char.ofNat (c.toNat + 32)).toNat = c.toNat + 32 := by
      rw [Char.ofNat, dif_pos hvalid]
      rfl
    have hlower : toAsciiLowercase c = Char.ofNat (c.toNat + 32) := if_pos h
    rw [hlower]
    unfold toAsciiLowercase
    rw [if_neg (by omega)]
  · have hlower : toAsciiLowercase c = c := if_neg h
    rw [hlower, hlower]

end Summoners
