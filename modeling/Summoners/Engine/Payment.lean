import Summoners.Domain.Words
import Summoners.Domain.Events

/-! # Paying a cost

`engine/payment.rs`. Typed components take their own pools; a Generic component is paid from the
hinted pool, or one unit at a time from the largest pool left. The simulated pools are the source's
`i64` array: three integers that stay far inside that width.
-/

namespace Summoners
set_option autoImplicit false

structure Deduction where
  manaType : ManaType
  amount : UInt32
  deriving DecidableEq, Repr

structure Payment where
  bank : ManaBank
  deductions : List Deduction
  deriving DecidableEq, Repr

inductive PaymentError
  | insufficient (short : ManaBank)
  | invalidHint
  deriving DecidableEq, Repr

namespace Payment

/-- `[i64; 3]`, indexed by `slot`. -/
structure Pools where
  matter : ℤ
  mind : ℤ
  spirit : ℤ
  deriving DecidableEq, Repr

def Pools.get (pools : Pools) : ManaType → ℤ
  | .matter => pools.matter
  | .mind => pools.mind
  | .spirit => pools.spirit

def Pools.add (pools : Pools) (t : ManaType) (n : ℤ) : Pools :=
  match t with
  | .matter => { pools with matter := pools.matter + n }
  | .mind => { pools with mind := pools.mind + n }
  | .spirit => { pools with spirit := pools.spirit + n }

/-- `POOL_ORDER`. -/
def poolOrder : List ManaType := [.matter, .mind, .spirit]

def toArray (bank : ManaBank) : Pools :=
  ⟨bank.matter.toNat, bank.mind.toNat, bank.spirit.toNat⟩

def unsignedDeficit (value : ℤ) : UInt32 :=
  if 0 ≤ value then 0
  else if -value ≤ u32Max then UInt32.ofNat (-value).toNat
  else UInt32.ofNat u32Max

/-- The pool the next unhinted Generic unit is paid from. -/
def pickLargestPool (remaining : Pools) (typedNamed : ManaType → Bool) : ManaType :=
  poolOrder.foldl (fun best candidate =>
    if remaining.get best < remaining.get candidate then candidate
    else if remaining.get candidate = remaining.get best then
      if !typedNamed candidate && typedNamed best then candidate else best
    else best) .matter

/-- The loop over the Generic units: the pools left and the units spent from each. -/
def payGeneric (typedNamed : ManaType → Bool) : ℕ → Pools → Pools → Pools × Pools
  | 0, remaining, spent => (remaining, spent)
  | n + 1, remaining, spent =>
      let chosen := pickLargestPool remaining typedNamed
      payGeneric typedNamed n (remaining.add chosen (-1)) (spent.add chosen 1)

def typedNamed (cost : Cost) : ManaType → Bool
  | .matter => decide (0 < cost.matter)
  | .mind => decide (0 < cost.mind)
  | .spirit => decide (0 < cost.spirit)

/-- `u32::try_from(value).unwrap_or(0)`. -/
def unsignedNonnegative (value : ℤ) : UInt32 :=
  if 0 ≤ value ∧ value ≤ u32Max then UInt32.ofNat value.toNat else 0

/-- `u32::try_from(amount).unwrap_or(u32::MAX)`. -/
def deductionAmount (amount : ℤ) : UInt32 :=
  if 0 ≤ amount ∧ amount ≤ u32Max then UInt32.ofNat amount.toNat else UInt32.ofNat u32Max

/-- The pools once the typed components have been set aside. -/
def typedRemaining (bank : ManaBank) (cost : Cost) : Pools :=
  (((toArray bank).add .matter (-cost.matter.toNat)).add .mind (-cost.mind.toNat)).add .spirit
    (-cost.spirit.toNat)

/-- The second half of `deduct`: the pools after every component has been paid. -/
def settle (cost : Cost) (remaining genericSpent : Pools) : Except PaymentError Payment :=
  if remaining.matter < 0 ∨ remaining.mind < 0 ∨ remaining.spirit < 0 then
    .error (.insufficient
      ⟨unsignedDeficit remaining.matter, unsignedDeficit remaining.mind,
        unsignedDeficit remaining.spirit⟩)
  else
    let totalSpent : Pools :=
      ⟨cost.matter.toNat + genericSpent.matter, cost.mind.toNat + genericSpent.mind,
        cost.spirit.toNat + genericSpent.spirit⟩
    .ok
      { bank := ⟨unsignedNonnegative remaining.matter, unsignedNonnegative remaining.mind,
          unsignedNonnegative remaining.spirit⟩
        deductions := poolOrder.filterMap (fun t =>
          if 0 < totalSpent.get t then some ⟨t, deductionAmount (totalSpent.get t)⟩ else none) }

def deduct (bank : ManaBank) (cost : Cost) (hint : Option ManaType) : Except PaymentError Payment :=
  let typedShort : ManaBank :=
    ⟨saturatingSub cost.matter bank.matter, saturatingSub cost.mind bank.mind,
      saturatingSub cost.spirit bank.spirit⟩
  if 0 < typedShort.matter ∨ 0 < typedShort.mind ∨ 0 < typedShort.spirit then
    .error (.insufficient typedShort)
  else
    let remaining := typedRemaining bank cost
    match hint with
    | some hintType =>
        if cost.generic = 0 ∨ remaining.get hintType = 0 then .error .invalidHint
        else
          settle cost (remaining.add hintType (-cost.generic.toNat))
            ((⟨0, 0, 0⟩ : Pools).add hintType cost.generic.toNat)
    | none =>
        let paid := payGeneric (typedNamed cost) cost.generic.toNat remaining ⟨0, 0, 0⟩
        settle cost paid.1 paid.2

/-- The `ManaDeducted` facts of a payment. -/
def events (payment : Payment) (player : PlayerId) : List GameEvent :=
  payment.deductions.map (fun d => .manaDeducted player d.manaType d.amount)

end Payment

/-- How every caller reports a failed payment. -/
def PaymentError.toAction : PaymentError → ActionError
  | .insufficient short => .insufficientMana short
  | .invalidHint => .invalidManaHint

end Summoners
