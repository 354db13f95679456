import Mathlib.Data.List.Infix
import Mathlib.Data.Nat.Notation
import Mathlib.Tactic.Common

/-! # Occurrences of a word

`occurrences word text` counts the positions of `text` at which `word` stands. Over two parts it is
additive when the first part is settled: no occurrence begins in it and ends behind it.
-/

namespace Checked
set_option autoImplicit false

variable {α : Type} [DecidableEq α] {word : List α}

def occurrences (word : List α) : List α → ℕ
  | [] => 0
  | a :: rest => (if word <+: a :: rest then 1 else 0) + occurrences word rest

/-- No end of the text is the beginning of the word only. -/
def settled (word : List α) : List α → Bool
  | [] => true
  | a :: rest => decide (a :: rest <+: word → word <+: a :: rest) && settled word rest

theorem occurrences_append {front : List α} (h : settled word front = true) (back : List α) :
    occurrences word (front ++ back) = occurrences word front + occurrences word back := by
  induction front with
  | nil => simp [occurrences]
  | cons a front ih =>
    simp only [settled, Bool.and_eq_true, decide_eq_true_eq] at h
    have hstands : word <+: a :: (front ++ back) ↔ word <+: a :: front := by
      constructor
      · intro hword
        have hfront : a :: front <+: a :: (front ++ back) := List.prefix_append _ _
        exact (List.prefix_or_prefix_of_prefix hword hfront).elim id h.1
      · intro hword
        exact hword.trans (List.prefix_append _ _)
    rw [List.cons_append, occurrences, occurrences, ih h.2]
    by_cases hword : word <+: a :: front
    · rw [if_pos hword, if_pos (hstands.mpr hword)]
      omega
    · rw [if_neg hword, if_neg (mt hstands.mp hword)]
      omega

theorem settled_append {front back : List α} (hfront : settled word front = true)
    (hback : settled word back = true) : settled word (front ++ back) = true := by
  induction front with
  | nil => exact hback
  | cons a front ih =>
    simp only [settled, Bool.and_eq_true, decide_eq_true_eq] at hfront
    simp only [List.cons_append, settled, Bool.and_eq_true, decide_eq_true_eq]
    refine ⟨fun hend => ?_, ih hfront.2⟩
    have hbegin : a :: front <+: word := (List.prefix_append (a :: front) back).trans hend
    exact (hfront.1 hbegin).trans (List.prefix_append (a :: front) back)

/-- A settled text with `n` occurrences. -/
structure Occurs (word text : List α) (n : ℕ) : Prop where
  settled : settled word text = true
  count : occurrences word text = n

theorem Occurs.append {front back : List α} {m n : ℕ} (hfront : Occurs word front m)
    (hback : Occurs word back n) : Occurs word (front ++ back) (m + n) where
  settled := settled_append hfront.settled hback.settled
  count := by rw [occurrences_append hfront.settled, hfront.count, hback.count]

/-- A text without the first letter of the word. -/
theorem Occurs.absent {c : α} {text : List α} (h : c ∉ text) : Occurs (c :: word) text 0 := by
  induction text with
  | nil => exact ⟨rfl, rfl⟩
  | cons a text ih =>
    obtain ⟨hne, hrest⟩ := List.ne_and_not_mem_of_not_mem_cons h
    constructor
    · simp only [Checked.settled, Bool.and_eq_true, decide_eq_true_eq]
      exact ⟨fun hend => absurd (List.cons_prefix_cons.mp hend).1.symm hne, (ih hrest).settled⟩
    · rw [occurrences, (ih hrest).count, if_neg (fun hword => hne (List.cons_prefix_cons.mp hword).1)]

end Checked
