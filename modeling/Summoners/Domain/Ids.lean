import Mathlib.Data.Nat.Notation
import Mathlib.Tactic.Common

/-! # Seats, positions and per-seat pairs

`domain/ids.rs`, with the `PerPlayer` pair of `domain/state.rs` (it speaks about seats only).
-/

namespace Summoners
set_option autoImplicit false

/-- One of the two seats. -/
inductive PlayerId
  | one
  | two
  deriving DecidableEq, Repr

def PlayerId.opponent : PlayerId → PlayerId
  | .one => .two
  | .two => .one

@[simp] theorem PlayerId.opponent_opponent (p : PlayerId) : p.opponent.opponent = p := by
  cases p <;> rfl

@[simp] theorem PlayerId.opponent_ne (p : PlayerId) : p.opponent ≠ p := by
  cases p <;> decide

theorem PlayerId.eq_or_eq_opponent (p q : PlayerId) : q = p ∨ q = p.opponent := by
  cases p <;> cases q <;> decide

/-- A physical card of one match. -/
structure CardInstanceId where
  id : UInt32
  deriving DecidableEq, Repr

inductive BenchSlot
  | first
  | second
  | third
  deriving DecidableEq, Repr

/-- `BenchSlot::ALL`. -/
def BenchSlot.all : List BenchSlot := [.first, .second, .third]

theorem BenchSlot.mem_all (slot : BenchSlot) : slot ∈ BenchSlot.all := by
  cases slot <;> decide

inductive Position
  | main
  | bench (slot : BenchSlot)
  deriving DecidableEq, Repr

inductive ManaType
  | matter
  | mind
  | spirit
  deriving DecidableEq, Repr

/-! ## One value per seat -/

structure PerPlayer (α : Type) where
  one : α
  two : α
  deriving DecidableEq, Repr

namespace PerPlayer
variable {α : Type}

def get (pair : PerPlayer α) : PlayerId → α
  | .one => pair.one
  | .two => pair.two

/-- A write through `get_mut`. -/
def set (pair : PerPlayer α) (player : PlayerId) (value : α) : PerPlayer α :=
  match player with
  | .one => { pair with one := value }
  | .two => { pair with two := value }

@[simp] theorem get_set_self (pair : PerPlayer α) (p : PlayerId) (v : α) :
    (pair.set p v).get p = v := by
  cases p <;> rfl

theorem get_set_of_ne (pair : PerPlayer α) {p q : PlayerId} (h : q ≠ p) (v : α) :
    (pair.set p v).get q = pair.get q := by
  cases p <;> cases q <;> first | rfl | exact absurd rfl h

@[simp] theorem get_set_opponent (pair : PerPlayer α) (p : PlayerId) (v : α) :
    (pair.set p v).get p.opponent = pair.get p.opponent :=
  get_set_of_ne pair p.opponent_ne v

theorem get_set (pair : PerPlayer α) (p q : PlayerId) (v : α) :
    (pair.set p v).get q = if q = p then v else pair.get q := by
  by_cases h : q = p
  · subst h; simp
  · rw [if_neg h, get_set_of_ne pair h]

@[simp] theorem set_get_self (pair : PerPlayer α) (p : PlayerId) :
    pair.set p (pair.get p) = pair := by
  cases p <;> rfl

@[simp] theorem set_set (pair : PerPlayer α) (p : PlayerId) (v w : α) :
    (pair.set p v).set p w = pair.set p w := by
  cases p <;> rfl

end PerPlayer

end Summoners
