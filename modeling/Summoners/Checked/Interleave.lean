import Mathlib.Data.List.Perm.Basic
import Mathlib.Tactic.Common

/-! # Interleaving lists

The round-robin order: of every list its first element, in the order of the lists, then of every
list its second, and so on. A list that has ended is passed over.
-/

namespace Checked
set_option autoImplicit false

variable {α : Type}

/-- The length of the longest list. -/
def longest (lists : List (List α)) : ℕ := lists.foldr (fun l n => max l.length n) 0

def interleave (lists : List (List α)) : List α :=
  (List.range (longest lists)).flatMap (fun round => lists.filterMap (fun l => l[round]?))

theorem longest_cons (l : List α) (lists : List (List α)) :
    longest (l :: lists) = max l.length (longest lists) := rfl

theorem length_le_longest {lists : List (List α)} : ∀ l ∈ lists, l.length ≤ longest lists := by
  induction lists with
  | nil => simp
  | cons first lists ih =>
    rw [List.forall_mem_cons, longest_cons]
    exact ⟨Nat.le_max_left _ _, fun l hl => Nat.le_trans (ih l hl) (Nat.le_max_right _ _)⟩

theorem longest_tails (lists : List (List α)) :
    longest (lists.map List.tail) = longest lists - 1 := by
  induction lists with
  | nil => rfl
  | cons l lists ih =>
    rw [List.map_cons, longest_cons, longest_cons, ih, List.length_tail]
    omega

theorem eq_nil_of_longest {lists : List (List α)} (h : longest lists = 0) :
    ∀ l ∈ lists, l = [] := by
  intro l hl
  have hle := length_le_longest l hl
  rw [h] at hle
  exact List.eq_nil_of_length_eq_zero (Nat.le_zero.mp hle)

theorem interleave_of_nil {lists : List (List α)} (h : ∀ l ∈ lists, l = []) :
    interleave lists = [] := by
  unfold interleave
  rw [List.flatMap_eq_nil_iff]
  intro round _
  rw [List.filterMap_eq_nil_iff]
  intro l hl
  rw [h l hl]
  rfl

/-- **One round**, and what the rounds after it make of the tails. -/
theorem interleave_step (lists : List (List α)) :
    interleave lists = lists.filterMap List.head? ++ interleave (lists.map List.tail) := by
  by_cases h : longest lists = 0
  · have hnil := eq_nil_of_longest h
    have hheads : lists.filterMap List.head? = [] := by
      rw [List.filterMap_eq_nil_iff]
      intro l hl
      rw [hnil l hl]
      rfl
    rw [interleave_of_nil hnil, hheads, List.nil_append, interleave_of_nil]
    rw [List.forall_mem_map]
    intro l hl
    rw [hnil l hl]
    rfl
  · obtain ⟨n, hn⟩ := Nat.exists_eq_succ_of_ne_zero h
    unfold interleave
    rw [longest_tails, hn, Nat.succ_sub_one, List.range_succ_eq_map, List.flatMap_cons,
      List.flatMap_map]
    congr 1
    · congr 1
      funext l
      exact List.head?_eq_getElem?.symm
    · congr 1
      funext round
      rw [List.filterMap_map]
      congr 1
      funext l
      exact List.getElem?_tail.symm

/-- Nothing is lost, and nothing comes twice. -/
theorem interleave_perm (lists : List (List α)) : (interleave lists).Perm lists.flatten := by
  induction hn : longest lists generalizing lists with
  | zero =>
    have hnil := eq_nil_of_longest hn
    rw [interleave_of_nil hnil, List.flatten_eq_nil_iff.mpr hnil]
  | succ n ih =>
    rw [interleave_step]
    have htails := ih (lists.map List.tail) (by rw [longest_tails, hn]; rfl)
    refine (htails.append_left _).trans ?_
    clear ih hn htails
    induction lists with
    | nil => exact List.Perm.refl _
    | cons l lists ih =>
      cases l with
      | nil => simpa [List.filterMap_cons] using ih
      | cons a l =>
        simp only [List.filterMap_cons, List.head?_cons, List.map_cons, List.tail_cons,
          List.flatten_cons, List.cons_append]
        refine List.Perm.cons a ?_
        refine (List.perm_append_comm_assoc _ _ _).trans ?_
        exact ih.append_left l

theorem mem_interleave {lists : List (List α)} {a : α} :
    a ∈ interleave lists ↔ ∃ l ∈ lists, a ∈ l := by
  rw [(interleave_perm lists).mem_iff, List.mem_flatten]

end Checked
