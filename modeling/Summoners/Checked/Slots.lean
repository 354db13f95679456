import Mathlib.Data.List.Induction
import Mathlib.Data.Nat.Notation
import Mathlib.Tactic.Common

/-! # Slots

A list kept in a row of optional slots: an entry goes into the first free slot, an undo frees the
last one taken. `filled n l` is the row of `n` slots that holds `l` from the front.
-/

namespace Checked
set_option autoImplicit false

variable {α : Type}

/-- The row with `a` in the first free slot, if there is one. -/
def put (a : α) : List (Option α) → Option (List (Option α))
  | [] => none
  | none :: rest => some (some a :: rest)
  | some b :: rest => (put a rest).map (some b :: ·)

def freeFirst : List (Option α) → List (Option α)
  | [] => []
  | none :: rest => none :: freeFirst rest
  | some _ :: rest => none :: rest

/-- The row without the last entry. -/
def freeLast (slots : List (Option α)) : List (Option α) := (freeFirst slots.reverse).reverse

def filled (n : ℕ) (l : List α) : List (Option α) := l.map some ++ List.replicate (n - l.length) none

theorem length_put {a : α} {slots slots' : List (Option α)} (h : put a slots = some slots') :
    slots'.length = slots.length := by
  induction slots generalizing slots' with
  | nil => cases h
  | cons slot rest ih =>
    cases slot with
    | none =>
      cases h
      rfl
    | some b =>
      obtain ⟨rest', hrest, rfl⟩ := Option.map_eq_some_iff.mp h
      rw [List.length_cons, List.length_cons, ih hrest]

theorem length_freeFirst (slots : List (Option α)) : (freeFirst slots).length = slots.length := by
  induction slots with
  | nil => rfl
  | cons slot rest ih =>
    cases slot with
    | none => rw [freeFirst, List.length_cons, List.length_cons, ih]
    | some b => rfl

theorem length_freeLast (slots : List (Option α)) : (freeLast slots).length = slots.length := by
  unfold freeLast
  rw [List.length_reverse, length_freeFirst, List.length_reverse]

theorem put_filled (a : α) {n : ℕ} {l : List α} (h : l.length ≤ n) :
    put a (filled n l) = if l.length < n then some (filled n (l ++ [a])) else none := by
  induction l generalizing n with
  | nil =>
    cases n with
    | zero => rfl
    | succ n => simp [filled, List.replicate_succ, put]
  | cons b l ih =>
    cases n with
    | zero => simp at h
    | succ n =>
      have hcons : ∀ m : List α, filled (n + 1) (b :: m) = some b :: filled n m := by
        intro m
        simp [filled]
      rw [List.length_cons] at h
      rw [List.cons_append, hcons, hcons, put, ih (by omega), List.length_cons]
      by_cases hroom : l.length < n
      · rw [if_pos hroom, if_pos (by omega)]
        rfl
      · rw [if_neg hroom, if_neg (by omega)]
        rfl

theorem freeFirst_replicate (k : ℕ) (slots : List (Option α)) :
    freeFirst (List.replicate k none ++ slots) = List.replicate k none ++ freeFirst slots := by
  induction k with
  | zero => rfl
  | succ k ih => rw [List.replicate_succ, List.cons_append, freeFirst, ih, List.cons_append]

theorem freeLast_filled {n : ℕ} {l : List α} (h : l.length ≤ n) :
    freeLast (filled n l) = filled n l.dropLast := by
  unfold freeLast filled
  rw [List.reverse_append, List.reverse_replicate, freeFirst_replicate]
  induction l using List.reverseRecOn with
  | nil => simp [freeFirst]
  | append_singleton l a =>
    rw [List.length_append, List.length_singleton] at h
    have hlast : freeFirst ((l ++ [a]).map some).reverse = none :: (l.map some).reverse := by
      rw [List.map_append, List.reverse_append]
      rfl
    rw [hlast, List.dropLast_concat, List.length_append, List.length_singleton,
      List.reverse_append, List.reverse_cons, List.reverse_reverse, List.reverse_replicate,
      List.append_assoc]
    have hfree : n - l.length = n - (l.length + 1) + 1 := by omega
    rw [hfree, List.replicate_succ]
    rfl

theorem filterMap_filled (n : ℕ) (l : List α) : (filled n l).filterMap id = l := by
  unfold filled
  rw [List.filterMap_append, List.filterMap_map, List.filterMap_replicate_of_none rfl,
    List.append_nil]
  exact List.filterMap_some

end Checked
