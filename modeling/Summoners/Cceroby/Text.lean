import Mathlib.Data.List.DropRight
import Summoners.Domain.Ascii

/-! # Text

The operations on characters and strings that `cceroby` calls in the standard library. The Unicode
tables behind `char::to_lowercase` and `char::is_alphanumeric` are a parameter, with what is relied
on of them.
-/

namespace Summoners.Cceroby
set_option autoImplicit false

/-- `char::is_whitespace`: the Unicode `White_Space` property. -/
def isWhitespace (c : Char) : Bool :=
  let n := c.toNat
  (9 ≤ n && n ≤ 13) || n = 0x20 || n = 0x85 || n = 0xa0 || n = 0x1680 ||
    (0x2000 ≤ n && n ≤ 0x200a) || n = 0x2028 || n = 0x2029 || n = 0x202f || n = 0x205f || n = 0x3000

/-- `str::trim`. -/
def trim (text : List Char) : List Char := (text.dropWhile isWhitespace).rdropWhile isWhitespace

/-- The tables of the standard library: the lowercase expansion of a character and the alphanumeric
characters. -/
structure CharTables where
  toLowercase : Char → List Char
  isAlphanumeric : Char → Bool
  /-- Lowercased characters are fixpoints of lowercasing. -/
  lowercase_lowercase : ∀ c, ∀ d ∈ toLowercase c, toLowercase d = [d]
  whitespace_lowercase : ∀ c, isWhitespace c = true → toLowercase c = [c]
  whitespace_alphanumeric : ∀ c, isWhitespace c = true → isAlphanumeric c = false
  ascii_lowercase : ∀ c, c.toNat < 128 → toLowercase c = [toAsciiLowercase c]
  ascii_alphanumeric : ∀ c, c.toNat < 128 → isAlphanumeric c = isAsciiAlphanumeric c

theorem whitespace_ascii {c : Char} (h : isWhitespace c = true) :
    toAsciiLowercase c = c ∧ isAsciiAlphanumeric c = false := by
  simp only [isWhitespace, Bool.or_eq_true, Bool.and_eq_true, decide_eq_true_eq] at h
  constructor
  · unfold toAsciiLowercase
    rw [if_neg (by omega)]
  · simp only [isAsciiAlphanumeric, Bool.or_eq_false_iff, Bool.and_eq_false_iff,
      decide_eq_false_iff_not]
    omega

/-- The tables of a text in ASCII, where no other character is alphanumeric. -/
def CharTables.ascii : CharTables where
  toLowercase c := [toAsciiLowercase c]
  isAlphanumeric := isAsciiAlphanumeric
  lowercase_lowercase c d hd := by
    rw [List.mem_singleton] at hd
    rw [hd, toAsciiLowercase_toAsciiLowercase]
  whitespace_lowercase _ hc := by rw [(whitespace_ascii hc).1]
  whitespace_alphanumeric _ hc := (whitespace_ascii hc).2
  ascii_lowercase _ _ := rfl
  ascii_alphanumeric _ _ := rfl

theorem mem_trim {text : List Char} {c : Char} (h : c ∈ text) (hc : isWhitespace c = false) :
    c ∈ trim text := by
  have hdrop : c ∈ text.dropWhile isWhitespace := by
    have hmem : c ∈ text.takeWhile isWhitespace ++ text.dropWhile isWhitespace := by
      rwa [List.takeWhile_append_dropWhile]
    refine (List.mem_append.mp hmem).resolve_left (fun htake => ?_)
    rw [List.mem_takeWhile_imp htake] at hc
    cases hc
  have hmem : c ∈ (text.dropWhile isWhitespace).rdropWhile isWhitespace ++
      (text.dropWhile isWhitespace).rtakeWhile isWhitespace := by
    rwa [List.rdropWhile_append_rtakeWhile]
  refine (List.mem_append.mp hmem).resolve_right (fun htake => ?_)
  rw [List.mem_rtakeWhile_imp htake] at hc
  cases hc

theorem trim_subset {text : List Char} {c : Char} (h : c ∈ trim text) : c ∈ text :=
  (List.dropWhile_sublist _).subset ((List.rdropWhile_prefix _ _).subset h)

/-- A text whose ends are no whitespace is trimmed already. -/
theorem trim_self {text : List Char} (hfirst : ∀ c ∈ text.head?, isWhitespace c = false)
    (hlast : ∀ c ∈ text.getLast?, isWhitespace c = false) : trim text = text := by
  have hdrop : text.dropWhile isWhitespace = text := by
    cases text with
    | nil => rfl
    | cons c rest => simp [hfirst c rfl]
  unfold trim
  rw [hdrop, List.rdropWhile_eq_self_iff]
  intro hne
  rw [hlast _ (List.getLast?_eq_some_getLast hne)]
  decide

end Summoners.Cceroby
