import Summoners.Proof.ManaLedger

/-! # What `deduct` answers

The hinted Generic component is one subtraction. The unhinted one is a loop that takes each unit
from a largest pool: the pools it has taken from stay level with the others, and the simulated pools
never stand on both sides of zero, so a shortfall is the missing amount and nothing more.
-/

namespace Summoners
set_option autoImplicit false

/-- The typed component of a cost. -/
def Cost.typed (cost : Cost) : ManaType → UInt32
  | .matter => cost.matter
  | .mind => cost.mind
  | .spirit => cost.spirit

namespace Payment

/-- What a bank holds beyond a typed component, negative where it holds less. -/
def left (bank : ManaBank) (cost : Cost) (t : ManaType) : ℤ :=
  (bank.pool t).toNat - (cost.typed t).toNat

/-- The error names what each typed component lacks. -/
def TypedShort (bank : ManaBank) (cost : Cost) (short : ManaBank) : Prop :=
  ∀ t, (short.pool t).toNat = (cost.typed t).toNat - (bank.pool t).toNat

/-- The answer where a hint names the pool for the Generic component. -/
structure HintPays (bank : ManaBank) (cost : Cost) (hintType : ManaType) : Prop where
  invalid : deduct bank cost (some hintType) = .error .invalidHint ↔
    cost.generic = 0 ∨ left bank cost hintType = 0
  pays : (∃ payment, deduct bank cost (some hintType) = .ok payment) ↔
    0 < cost.generic ∧ (cost.generic.toNat : ℤ) ≤ left bank cost hintType
  takes : ∀ payment, deduct bank cost (some hintType) = .ok payment → ∀ t,
    payment.spent t = (cost.typed t).toNat + if t = hintType then cost.generic.toNat else 0

/-- The answer where the Generic component is spread. -/
structure SpreadPays (bank : ManaBank) (cost : Cost) : Prop where
  pays : (∃ payment, deduct bank cost none = .ok payment) ↔
    (cost.generic.toNat : ℤ) ≤ left bank cost .matter + left bank cost .mind + left bank cost .spirit
  missing : ∀ e, deduct bank cost none = .error e → ∃ short, e = .insufficient short ∧
    ((short.matter.toNat + short.mind.toNat + short.spirit.toNat : ℕ) : ℤ) =
      cost.generic.toNat - (left bank cost .matter + left bank cost .mind + left bank cost .spirit)
  level : ∀ payment, deduct bank cost none = .ok payment → ∀ t u,
    (cost.typed t).toNat < payment.spent t →
      (payment.bank.pool u).toNat ≤ (payment.bank.pool t).toNat + 1

/-- The payment adds up, pool by pool and over all pools. -/
structure AddsUp (bank : ManaBank) (cost : Cost) (payment : Payment) : Prop where
  exact : ∀ t, (payment.bank.pool t).toNat + payment.spent t = (bank.pool t).toNat
  typed : ∀ t, (cost.typed t).toNat ≤ payment.spent t
  total : (payment.deductions.map (fun d => d.amount.toNat)).sum =
    cost.matter.toNat + cost.mind.toNat + cost.spirit.toNat + cost.generic.toNat
  listed : payment.deductions.map (fun d => d.manaType) =
    poolOrder.filter (fun t => 0 < payment.spent t)

/-! ## The loop over the Generic units -/

def Pools.total (pools : Pools) : ℤ := pools.matter + pools.mind + pools.spirit

/-- No pool that paid a unit lies more than one below another pool. -/
def Level (remaining spent : Pools) : Prop :=
  ∀ t u, 0 < spent.get t → remaining.get u ≤ remaining.get t + 1

/-- The pools do not stand on both sides of zero. -/
def OneSided (pools : Pools) : Prop :=
  (∀ t, 0 ≤ pools.get t) ∨ ∀ t, pools.get t ≤ 0

theorem Pools.total_add (pools : Pools) (t : ManaType) (n : ℤ) :
    (pools.add t n).total = pools.total + n := by
  cases t <;> simp only [Pools.add, Pools.total] <;> omega

/-- A fold that never lets go of the better one ends with one of the best. -/
theorem le_foldl {α β : Type} [Preorder β] (value : α → β) (pick : α → α → α)
    (hpick : ∀ best candidate, value best ≤ value (pick best candidate) ∧
      value candidate ≤ value (pick best candidate)) (l : List α) (first : α) :
    value first ≤ value (l.foldl pick first) ∧ ∀ x ∈ l, value x ≤ value (l.foldl pick first) := by
  induction l generalizing first with
  | nil => simp
  | cons y l ih =>
      obtain ⟨hfirst, hrest⟩ := ih (pick first y)
      obtain ⟨hbest, hcandidate⟩ := hpick first y
      refine ⟨hbest.trans hfirst, fun x hx => ?_⟩
      obtain rfl | hx := List.mem_cons.mp hx
      · exact hcandidate.trans hfirst
      · exact hrest x hx

theorem mem_poolOrder (t : ManaType) : t ∈ poolOrder := by
  cases t <;> decide

theorem get_pickLargestPool (remaining : Pools) (named : ManaType → Bool) (u : ManaType) :
    remaining.get u ≤ remaining.get (pickLargestPool remaining named) := by
  refine (le_foldl remaining.get _ (fun best candidate => ?_) poolOrder .matter).2 u
    (mem_poolOrder u)
  split
  · omega
  · split
    · split <;> omega
    · omega

theorem payGeneric_total (named : ManaType → Bool) (n : ℕ) (remaining spent : Pools) :
    (payGeneric named n remaining spent).1.total = remaining.total - n ∧
      (payGeneric named n remaining spent).2.total = spent.total + n := by
  induction n generalizing remaining spent with
  | zero => simp [payGeneric]
  | succ n ih =>
      have h := ih (remaining.add (pickLargestPool remaining named) (-1))
        (spent.add (pickLargestPool remaining named) 1)
      rw [Pools.total_add, Pools.total_add] at h
      unfold payGeneric
      simp only
      omega

theorem payGeneric_level (named : ManaType → Bool) (n : ℕ) (remaining spent : Pools)
    (h : Level remaining spent) :
    Level (payGeneric named n remaining spent).1 (payGeneric named n remaining spent).2 := by
  induction n generalizing remaining spent with
  | zero => exact h
  | succ n ih =>
      unfold payGeneric
      refine ih _ _ (fun t u ht => ?_)
      have hmax := get_pickLargestPool remaining named u
      have hold := h t u
      simp only [Pools.get_add] at ht ⊢
      by_cases htc : t = pickLargestPool remaining named
      · subst htc
        simp only at ht ⊢
        split <;> omega
      · rw [if_neg htc] at ht ⊢
        have := hold (by omega)
        split <;> omega

theorem payGeneric_oneSided (named : ManaType → Bool) (n : ℕ) (remaining spent : Pools)
    (h : OneSided remaining) : OneSided (payGeneric named n remaining spent).1 := by
  induction n generalizing remaining spent with
  | zero => exact h
  | succ n ih =>
      unfold payGeneric
      refine ih _ _ ?_
      have hmax := get_pickLargestPool remaining named
      by_cases hpos : 0 < remaining.get (pickLargestPool remaining named)
      · -- the unit comes from a positive pool, so no pool is negative yet
        refine .inl (fun t => ?_)
        have hnonneg : ∀ u, 0 ≤ remaining.get u := by
          obtain h | h := h
          · exact h
          · exact absurd (h (pickLargestPool remaining named)) (by omega)
        have ht := hnonneg t
        rw [Pools.get_add]
        split
        · rename_i heq
          rw [heq]
          omega
        · omega
      · -- the largest pool is used up, and so is every other
        refine .inr (fun t => ?_)
        have ht := hmax t
        rw [Pools.get_add]
        split <;> omega

/-! ## The last step -/

section
variable {bank : ManaBank} {cost : Cost} {remaining generic : Pools}

theorem typedCost_get (cost : Cost) (t : ManaType) :
    (typedCost cost).get t = (cost.typed t).toNat := by
  cases t <;> rfl

theorem typedRemaining_left (bank : ManaBank) (cost : Cost) (t : ManaType) :
    (typedRemaining bank cost).get t = left bank cost t := by
  have := typedRemaining_get bank cost t
  rw [typedCost_get] at this
  unfold left
  omega

theorem unsignedDeficit_toNat {v : ℤ} (h : -v ≤ u32Max) :
    ((unsignedDeficit v).toNat : ℤ) = if 0 ≤ v then 0 else -v := by
  unfold unsignedDeficit
  split
  · rfl
  · unfold u32Max at h
    simp
    omega

theorem settle_ok_iff :
    (∃ payment, settle cost remaining generic = .ok payment) ↔ ∀ t, 0 ≤ remaining.get t := by
  unfold settle
  constructor
  · rintro ⟨payment, h⟩ t
    split at h
    · cases h
    · rename_i hneg
      simp only [not_or, not_lt] at hneg
      cases t with
      | matter => exact hneg.1
      | mind => exact hneg.2.1
      | spirit => exact hneg.2.2
  · intro h
    have hm := h .matter
    have hn := h .mind
    have hs := h .spirit
    simp only [Pools.get] at hm hn hs
    rw [if_neg (by omega)]
    exact ⟨_, rfl⟩

theorem settle_error {e : PaymentError} (h : settle cost remaining generic = .error e) :
    (∃ t, remaining.get t < 0) ∧ e = .insufficient ⟨unsignedDeficit remaining.matter,
      unsignedDeficit remaining.mind, unsignedDeficit remaining.spirit⟩ := by
  unfold settle at h
  split at h
  · rename_i hneg
    cases h
    refine ⟨?_, rfl⟩
    obtain hm | hn | hs := hneg
    · exact ⟨.matter, hm⟩
    · exact ⟨.mind, hn⟩
    · exact ⟨.spirit, hs⟩
  · cases h

theorem unsignedDeficit_pos {v : ℤ} (h : v < 0) : 0 < (unsignedDeficit v).toNat := by
  unfold unsignedDeficit u32Max
  rw [if_neg (by omega)]
  split
  · rename_i hfits
    simp
    omega
  · decide

/-- A shortfall of the last step is not zero. -/
theorem settle_short {short : ManaBank}
    (h : settle cost remaining generic = .error (.insufficient short)) :
    ∃ t, 0 < (short.pool t).toNat := by
  obtain ⟨⟨t, ht⟩, hshort⟩ := settle_error h
  cases hshort
  refine ⟨t, ?_⟩
  cases t <;> exact unsignedDeficit_pos ht

/-- The deductions of a payment are the typed and the generic units of each pool. -/
theorem settle_spent {payment : Payment}
    (hsum : ∀ t, remaining.get t + (typedCost cost).get t + generic.get t = (bank.pool t).toNat)
    (hgeneric : ∀ t, 0 ≤ generic.get t) (h : settle cost remaining generic = .ok payment)
    (t : ManaType) : (payment.spent t : ℤ) = (cost.typed t).toNat + generic.get t := by
  have hexact := settle_exact hsum hgeneric h t
  have hnonneg := settle_ok_iff.mp ⟨payment, h⟩ t
  have hs := hsum t
  have hle := pool_le bank t
  have hg := hgeneric t
  rw [typedCost_get] at hs
  have hfits : remaining.get t ≤ u32Max := by omega
  have hbank : (payment.bank.pool t).toNat = (remaining.get t).toNat := by
    unfold settle at h
    split at h
    · cases h
    · cases h
      cases t <;> exact unsignedNonnegative_toNat hnonneg hfits
  omega

/-- One entry for each pool that pays. -/
theorem settle_listed {payment : Payment} (h : settle cost remaining generic = .ok payment)
    (hpaid : ∀ t, (payment.spent t : ℤ) = (cost.typed t).toNat + generic.get t) :
    payment.deductions.map (fun d => d.manaType) =
        poolOrder.filter (fun t => 0 < payment.spent t) ∧
      (payment.deductions.map (fun d => d.amount.toNat)).sum =
        payment.spent .matter + payment.spent .mind + payment.spent .spirit := by
  have hpos : ∀ t, decide (0 < payment.spent t) =
      decide (0 < ((cost.typed t).toNat : ℤ) + generic.get t) := by
    intro t
    rw [← hpaid t]
    simp
  have hlist : payment.deductions = poolOrder.filterMap (fun t =>
      if 0 < ((cost.typed t).toNat : ℤ) + generic.get t then
        some ⟨t, deductionAmount ((cost.typed t).toNat + generic.get t)⟩ else none) := by
    unfold settle at h
    split at h
    · cases h
    · cases h
      refine List.filterMap_congr (fun t _ => ?_)
      cases t <;> rfl
  refine ⟨?_, ?_⟩
  · simp only [hpos, hlist, poolOrder]
    by_cases hm : 0 < ((cost.typed .matter).toNat : ℤ) + generic.get .matter <;>
      by_cases hn : 0 < ((cost.typed .mind).toNat : ℤ) + generic.get .mind <;>
        by_cases hs : 0 < ((cost.typed .spirit).toNat : ℤ) + generic.get .spirit <;>
          simp [hm, hn, hs]
  · unfold spent
    rw [hlist]
    simp only [poolOrder]
    by_cases hm : 0 < ((cost.typed .matter).toNat : ℤ) + generic.get .matter <;>
      by_cases hn : 0 < ((cost.typed .mind).toNat : ℤ) + generic.get .mind <;>
        by_cases hs : 0 < ((cost.typed .spirit).toNat : ℤ) + generic.get .spirit <;>
          simp [hm, hn, hs, Nat.add_assoc]

end

/-! ## Both ways to pay -/

section
variable {bank : ManaBank} {cost : Cost}

/-- A payment the last step made adds up. -/
theorem settle_addsUp {remaining generic : Pools} {payment : Payment}
    (hsum : ∀ t, remaining.get t + (typedCost cost).get t + generic.get t = (bank.pool t).toNat)
    (hgeneric : ∀ t, 0 ≤ generic.get t) (htotal : generic.total = cost.generic.toNat)
    (h : settle cost remaining generic = .ok payment) : AddsUp bank cost payment := by
  have hpaid := settle_spent hsum hgeneric h
  obtain ⟨hlisted, hamounts⟩ := settle_listed h hpaid
  refine ⟨settle_exact hsum hgeneric h, fun t => ?_, ?_, hlisted⟩
  · have := hpaid t
    have := hgeneric t
    omega
  · have hm := hpaid .matter
    have hn := hpaid .mind
    have hs := hpaid .spirit
    simp only [Cost.typed, Pools.get] at hm hn hs
    unfold Pools.total at htotal
    rw [hamounts]
    omega

/-- The hinted pool pays all Generic units. -/
theorem hinted_sum (bank : ManaBank) (cost : Cost) (hintType : ManaType) (t : ManaType) :
    ((typedRemaining bank cost).add hintType (-cost.generic.toNat)).get t + (typedCost cost).get t +
      ((⟨0, 0, 0⟩ : Pools).add hintType cost.generic.toNat).get t = (bank.pool t).toNat := by
  have := typedRemaining_get bank cost t
  have hzero : (⟨0, 0, 0⟩ : Pools).get t = 0 := by cases t <;> rfl
  rw [Pools.get_add, Pools.get_add, hzero]
  split <;> omega

theorem hinted_nonneg (cost : Cost) (hintType : ManaType) (t : ManaType) :
    0 ≤ ((⟨0, 0, 0⟩ : Pools).add hintType cost.generic.toNat).get t := by
  have hzero : (⟨0, 0, 0⟩ : Pools).get t = 0 := by cases t <;> rfl
  rw [Pools.get_add, hzero]
  split <;> omega

/-- The loop moves units from the pools left to the pools spent. -/
theorem spread_sum (bank : ManaBank) (cost : Cost) (t : ManaType) :
    (payGeneric (typedNamed cost) cost.generic.toNat (typedRemaining bank cost) ⟨0, 0, 0⟩).1.get t +
        (typedCost cost).get t +
      (payGeneric (typedNamed cost) cost.generic.toNat (typedRemaining bank cost) ⟨0, 0, 0⟩).2.get
        t = (bank.pool t).toNat := by
  have := typedRemaining_get bank cost t
  have hpaid := (payGeneric_get (typedNamed cost) t cost.generic.toNat (typedRemaining bank cost)
    ⟨0, 0, 0⟩).1
  have hzero : (⟨0, 0, 0⟩ : Pools).get t = 0 := by cases t <;> rfl
  omega

theorem spread_nonneg (bank : ManaBank) (cost : Cost) (t : ManaType) :
    0 ≤ (payGeneric (typedNamed cost) cost.generic.toNat (typedRemaining bank cost)
      ⟨0, 0, 0⟩).2.get t := by
  have hpaid := (payGeneric_get (typedNamed cost) t cost.generic.toNat (typedRemaining bank cost)
    ⟨0, 0, 0⟩).2
  have hzero : (⟨0, 0, 0⟩ : Pools).get t = 0 := by cases t <;> rfl
  omega

/-- The two ways past the typed components. -/
theorem deduct_of_covered (h : ∀ t, cost.typed t ≤ bank.pool t) (hint : Option ManaType) :
    deduct bank cost hint = match hint with
      | some hintType =>
          if cost.generic = 0 ∨ left bank cost hintType = 0 then .error .invalidHint
          else settle cost ((typedRemaining bank cost).add hintType (-cost.generic.toNat))
            ((⟨0, 0, 0⟩ : Pools).add hintType cost.generic.toNat)
      | none =>
          settle cost
            (payGeneric (typedNamed cost) cost.generic.toNat (typedRemaining bank cost) ⟨0, 0, 0⟩).1
            (payGeneric (typedNamed cost) cost.generic.toNat (typedRemaining bank cost)
              ⟨0, 0, 0⟩).2 := by
  have hzero : ∀ a b : UInt32, a ≤ b → saturatingSub a b = 0 := by
    intro a b hab
    have hnat := UInt32.le_iff_toNat_le.mp hab
    rw [← UInt32.toNat_inj, saturatingSub_toNat, UInt32.toNat_zero]
    omega
  have hm : saturatingSub cost.matter bank.matter = 0 := hzero _ _ (h .matter)
  have hn : saturatingSub cost.mind bank.mind = 0 := hzero _ _ (h .mind)
  have hs : saturatingSub cost.spirit bank.spirit = 0 := hzero _ _ (h .spirit)
  unfold deduct
  simp only [hm, hn, hs]
  rw [if_neg (by decide)]
  cases hint with
  | none => rfl
  | some hintType => simp only [typedRemaining_left]

/-- Some typed component exceeds its pool. -/
theorem deduct_of_exceeded {t : ManaType} (h : bank.pool t < cost.typed t)
    (hint : Option ManaType) :
    ∃ short, deduct bank cost hint = .error (.insufficient short) ∧ TypedShort bank cost short := by
  have hpos : ∀ a b : UInt32, a < b → 0 < saturatingSub b a := by
    intro a b hab
    have hnat := UInt32.lt_iff_toNat_lt.mp hab
    rw [UInt32.lt_iff_toNat_lt, saturatingSub_toNat, UInt32.toNat_zero]
    omega
  refine ⟨⟨saturatingSub cost.matter bank.matter, saturatingSub cost.mind bank.mind,
    saturatingSub cost.spirit bank.spirit⟩, ?_, fun u => ?_⟩
  · unfold deduct
    simp only
    rw [if_pos]
    cases t with
    | matter => exact .inl (hpos _ _ h)
    | mind => exact .inr (.inl (hpos _ _ h))
    | spirit => exact .inr (.inr (hpos _ _ h))
  · cases u <;> exact saturatingSub_toNat _ _

theorem hintPays (hcovered : ∀ t, cost.typed t ≤ bank.pool t) (hintType : ManaType) :
    HintPays bank cost hintType := by
  have hanswer := deduct_of_covered hcovered (some hintType)
  simp only at hanswer
  have hleft : ∀ t, 0 ≤ left bank cost t := by
    intro t
    have := UInt32.le_iff_toNat_le.mp (hcovered t)
    unfold left
    omega
  have hsettle : (∃ payment, settle cost
      ((typedRemaining bank cost).add hintType (-cost.generic.toNat))
      ((⟨0, 0, 0⟩ : Pools).add hintType cost.generic.toNat) = .ok payment) ↔
        (cost.generic.toNat : ℤ) ≤ left bank cost hintType := by
    rw [settle_ok_iff]
    constructor
    · intro h
      have := h hintType
      rw [Pools.get_add, if_pos rfl, typedRemaining_left] at this
      omega
    · intro h t
      have := hleft t
      rw [Pools.get_add, typedRemaining_left]
      split
      · rename_i heq
        rw [heq]
        omega
      · omega
  have hgeneric : cost.generic = 0 ↔ cost.generic.toNat = 0 := by
    rw [← UInt32.toNat_inj]
    rfl
  refine ⟨?_, ?_, ?_⟩
  · rw [hanswer]
    split
    · rename_i hinvalid
      exact ⟨fun _ => hinvalid, fun _ => rfl⟩
    · rename_i hvalid
      refine ⟨fun h => ?_, fun h => absurd h hvalid⟩
      cases (settle_error h).2
  · rw [hanswer]
    split
    · rename_i hinvalid
      have hpos : ¬0 < cost.generic ∨ left bank cost hintType = 0 := by
        rcases hinvalid with h | h
        · exact .inl (by rw [h]; decide)
        · exact .inr h
      constructor
      · rintro ⟨_, h⟩
        cases h
      · rintro ⟨hlt, hle⟩
        rw [UInt32.lt_iff_toNat_lt] at hlt hpos
        simp only [UInt32.toNat_zero] at hlt hpos
        omega
    · rename_i hvalid
      rw [hsettle]
      simp only [not_or] at hvalid
      have hlt : 0 < cost.generic := by
        rw [UInt32.lt_iff_toNat_lt]
        have := mt hgeneric.mpr hvalid.1
        simp only [UInt32.toNat_zero]
        omega
      exact ⟨fun h => ⟨hlt, h⟩, fun h => h.2⟩
  · intro payment h t
    rw [hanswer] at h
    split at h
    · cases h
    · have hspent := settle_spent (hinted_sum bank cost hintType) (hinted_nonneg cost hintType) h t
      have hzero : (⟨0, 0, 0⟩ : Pools).get t = 0 := by cases t <;> rfl
      rw [Pools.get_add, hzero] at hspent
      by_cases heq : t = hintType
      · rw [if_pos heq] at hspent ⊢
        omega
      · rw [if_neg heq] at hspent ⊢
        omega

/-- The unhinted answer is that of the last step, on pools that are level and on one side of zero. -/
theorem spreadPays (hcovered : ∀ t, cost.typed t ≤ bank.pool t) : SpreadPays bank cost := by
  have hanswer := deduct_of_covered hcovered none
  simp only at hanswer
  have hstart : ∀ t, 0 ≤ (typedRemaining bank cost).get t := by
    intro t
    have := UInt32.le_iff_toNat_le.mp (hcovered t)
    rw [typedRemaining_left]
    unfold left
    omega
  have hsum := spread_sum bank cost
  have hnonneg := spread_nonneg bank cost
  obtain ⟨htotal, -⟩ := payGeneric_total (typedNamed cost) cost.generic.toNat
    (typedRemaining bank cost) ⟨0, 0, 0⟩
  have hsided := payGeneric_oneSided (typedNamed cost) cost.generic.toNat
    (typedRemaining bank cost) ⟨0, 0, 0⟩ (.inl hstart)
  have hlevel := payGeneric_level (typedNamed cost) cost.generic.toNat
    (typedRemaining bank cost) ⟨0, 0, 0⟩ (fun t _ h => by cases t <;> cases h)
  have hlefts : (typedRemaining bank cost).total =
      left bank cost .matter + left bank cost .mind + left bank cost .spirit := by
    simp only [← typedRemaining_left]
    rfl
  generalize (payGeneric (typedNamed cost) cost.generic.toNat (typedRemaining bank cost)
    ⟨0, 0, 0⟩) = paid at hanswer hsum hnonneg htotal hsided hlevel
  obtain ⟨remaining, generic⟩ := paid
  simp only at hanswer hsum hnonneg htotal hsided hlevel
  rw [hlefts] at htotal
  refine ⟨?_, ?_, ?_⟩
  · rw [hanswer, settle_ok_iff]
    constructor
    · intro h
      have hm := h .matter
      have hn := h .mind
      have hs := h .spirit
      simp only [Pools.get, Pools.total] at hm hn hs htotal
      omega
    · intro h
      obtain hpos | hneg := hsided
      · exact hpos
      · -- pools below zero that add up to no less than zero are all zero
        have hm := hneg .matter
        have hn := hneg .mind
        have hs := hneg .spirit
        simp only [Pools.get, Pools.total] at hm hn hs htotal
        intro t
        cases t <;> simp only [Pools.get] <;> omega
  · intro e h
    rw [hanswer] at h
    obtain ⟨⟨t, ht⟩, rfl⟩ := settle_error h
    obtain hpos | hneg := hsided
    · exact absurd (hpos t) (by omega)
    · refine ⟨_, rfl, ?_⟩
      have hm := hneg .matter
      have hn := hneg .mind
      have hs := hneg .spirit
      simp only [Pools.get, Pools.total] at hm hn hs htotal
      have hgeneric : cost.generic.toNat ≤ u32Max := by
        have := cost.generic.toNat_lt
        unfold u32Max
        omega
      have hl : 0 ≤ left bank cost .matter + left bank cost .mind + left bank cost .spirit := by
        have h1 := hstart .matter
        have h2 := hstart .mind
        have h3 := hstart .spirit
        rw [typedRemaining_left] at h1 h2 h3
        omega
      have hdm := unsignedDeficit_toNat (v := remaining.matter) (by omega)
      have hdn := unsignedDeficit_toNat (v := remaining.mind) (by omega)
      have hds := unsignedDeficit_toNat (v := remaining.spirit) (by omega)
      split at hdm <;> split at hdn <;> split at hds <;> push_cast <;> omega
  · intro payment h t u ht
    rw [hanswer] at h
    have hspent := settle_spent hsum hnonneg h t
    have hpools : ∀ v, ((payment.bank.pool v).toNat : ℤ) = remaining.get v := by
      intro v
      have hexact := settle_exact hsum hnonneg h v
      have hv := settle_spent hsum hnonneg h v
      have hs := hsum v
      rw [typedCost_get] at hs
      omega
    have hclose := hlevel t u (by omega)
    rw [← hpools, ← hpools] at hclose
    omega

/-- Every payment adds up, with or without a hint. -/
theorem deduct_addsUp {hint : Option ManaType} {payment : Payment}
    (h : deduct bank cost hint = .ok payment) : AddsUp bank cost payment := by
  have hcovered : ∀ t, cost.typed t ≤ bank.pool t := by
    intro t
    by_contra hlt
    obtain ⟨short, herror, -⟩ := deduct_of_exceeded (UInt32.not_le.mp hlt) hint
    rw [herror] at h
    cases h
  rw [deduct_of_covered hcovered] at h
  cases hint with
  | some hintType =>
      simp only at h
      split at h
      · cases h
      · refine settle_addsUp (hinted_sum bank cost hintType) (hinted_nonneg cost hintType) ?_ h
        rw [Pools.total_add]
        simp [Pools.total]
  | none =>
      refine settle_addsUp (spread_sum bank cost) (spread_nonneg bank cost) ?_ h
      rw [(payGeneric_total _ _ _ _).2]
      simp [Pools.total]

end

/-- **Cost deduction is exact and complete.** The typed components come first and report what each
lacks; then a hint pays all Generic units from its pool or is refused, and without one the units are
spread, level, over the pools, or the whole missing amount is reported. What is paid adds up. -/
theorem deduct_exact_and_complete (bank : ManaBank) (cost : Cost) (hint : Option ManaType) :
    ((∃ short, deduct bank cost hint = .error (.insufficient short) ∧
        TypedShort bank cost short) ↔ ∃ t, bank.pool t < cost.typed t) ∧
      ((∀ t, cost.typed t ≤ bank.pool t) → match hint with
        | some hintType => HintPays bank cost hintType
        | none => SpreadPays bank cost) ∧
      ∀ payment, deduct bank cost hint = .ok payment → AddsUp bank cost payment := by
  refine ⟨⟨?_, ?_⟩, ?_, fun payment h => deduct_addsUp h⟩
  · rintro ⟨short, h, hshort⟩
    by_contra hnone
    have hcovered : ∀ t, cost.typed t ≤ bank.pool t := by
      intro t
      by_contra hlt
      exact hnone ⟨t, UInt32.not_le.mp hlt⟩
    -- no typed component is short, so this is an error of the last step
    have hpos : ∃ t, 0 < (short.pool t).toNat := by
      rw [deduct_of_covered hcovered] at h
      cases hint with
      | some hintType =>
          simp only at h
          split at h
          · cases h
          · exact settle_short h
      | none => exact settle_short h
    obtain ⟨t, ht⟩ := hpos
    have hle := UInt32.le_iff_toNat_le.mp (hcovered t)
    have := hshort t
    omega
  · rintro ⟨t, h⟩
    exact deduct_of_exceeded h hint
  · intro hcovered
    cases hint with
    | some hintType => exact hintPays hcovered hintType
    | none => exact spreadPays hcovered

/-- Two Generic units spread over three pools, after a typed one. -/
theorem deduct_exact_and_complete_spread :
    AddsUp ⟨2, 2, 1⟩ ⟨1, 0, 0, 2⟩ ⟨⟨1, 0, 1⟩, [⟨.matter, 1⟩, ⟨.mind, 2⟩]⟩ :=
  (deduct_exact_and_complete ⟨2, 2, 1⟩ ⟨1, 0, 0, 2⟩ none).2.2 _ (by decide +kernel)

end Payment

end Summoners
