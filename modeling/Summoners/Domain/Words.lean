import Mathlib.Data.Int.Notation
import Mathlib.Tactic.Common

/-! # Saturating `u32` arithmetic and removal from a list

The standard-library operations the engine calls by name: `saturating_add` and `saturating_sub`,
`saturating_add_signed`, and `position` followed by `remove`.
-/

namespace Summoners
set_option autoImplicit false

/-- `u32::MAX`. -/
def u32Max : ℕ := 4294967295

def saturatingAdd (a b : UInt32) : UInt32 :=
  if a.toNat + b.toNat ≤ u32Max then a + b else UInt32.ofNat u32Max

def saturatingSub (a b : UInt32) : UInt32 :=
  if b.toNat ≤ a.toNat then a - b else 0

theorem saturatingAdd_toNat (a b : UInt32) :
    (saturatingAdd a b).toNat = min u32Max (a.toNat + b.toNat) := by
  unfold saturatingAdd u32Max
  split
  · rename_i h
    rw [UInt32.toNat_add, Nat.mod_eq_of_lt (by omega), Nat.min_eq_right h]
  · rw [Nat.min_eq_left (by omega)]
    rfl

theorem saturatingSub_toNat (a b : UInt32) : (saturatingSub a b).toNat = a.toNat - b.toNat := by
  unfold saturatingSub
  split
  · rename_i h
    exact UInt32.toNat_sub_of_le a b (UInt32.le_iff_toNat_le.mpr h)
  · rw [UInt32.toNat_zero]
    omega

/-- `u32::saturating_add_signed`. -/
def saturatingAddSigned (a : UInt32) (b : Int32) : UInt32 :=
  if (a.toNat : ℤ) + b.toInt < 0 then 0
  else if (a.toNat : ℤ) + b.toInt ≤ u32Max then UInt32.ofNat ((a.toNat : ℤ) + b.toInt).toNat
  else UInt32.ofNat u32Max

section
variable {α : Type}

/-- The first element satisfying `p`, with the list that is left: `iter().position(p)` and then
`remove` at that index. -/
def removeFirst (p : α → Bool) : List α → Option (α × List α)
  | [] => none
  | x :: xs => if p x then some (x, xs) else (removeFirst p xs).map (fun r => (r.1, x :: r.2))

theorem removeFirst_perm {p : α → Bool} :
    ∀ {xs : List α} {x : α} {rest : List α}, removeFirst p xs = some (x, rest) →
      (x :: rest).Perm xs
  | [], _, _, h => by simp [removeFirst] at h
  | y :: ys, x, rest, h => by
      unfold removeFirst at h
      split at h
      · cases h; exact List.Perm.refl _
      · simp only [Option.map_eq_some_iff] at h
        obtain ⟨⟨z, zs⟩, hz, heq⟩ := h
        cases heq
        exact (List.Perm.swap _ _ _).trans ((removeFirst_perm hz).cons y)

/-- What is left is the list without that entry. -/
theorem removeFirst_split {p : α → Bool} {xs : List α} {x : α} {rest : List α}
    (h : removeFirst p xs = some (x, rest)) :
    ∃ before after, xs = before ++ x :: after ∧ rest = before ++ after := by
  induction xs generalizing rest with
  | nil => simp [removeFirst] at h
  | cons y ys ih =>
      unfold removeFirst at h
      split at h
      · cases h
        exact ⟨[], ys, rfl, rfl⟩
      · obtain ⟨⟨z, zs⟩, hz, heq⟩ := Option.map_eq_some_iff.mp h
        cases heq
        obtain ⟨before, after, rfl, rfl⟩ := ih hz
        exact ⟨y :: before, after, rfl, rfl⟩

theorem removeFirst_pos {p : α → Bool} :
    ∀ {xs : List α} {x : α} {rest : List α}, removeFirst p xs = some (x, rest) → p x = true
  | [], _, _, h => by simp [removeFirst] at h
  | y :: ys, x, rest, h => by
      unfold removeFirst at h
      split at h
      · rename_i hy
        cases h
        exact hy
      · obtain ⟨⟨z, zs⟩, hz, heq⟩ := Option.map_eq_some_iff.mp h
        cases heq
        exact removeFirst_pos hz

end

end Summoners
