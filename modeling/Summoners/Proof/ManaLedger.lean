import Mathlib.Algebra.BigOperators.Group.List.Basic
import Mathlib.Algebra.Ring.Nat
import Summoners.Fixtures
import Summoners.Steps.Actions

/-! # The Mana ledger and the Coin

Every pool is the pool before, plus the Mana reported as produced or converted, minus the Mana
reported as deducted. A payment is exact and comes first in its batch; every later change of a pool
is one unit, which the source adds with a wrapping `+= 1`.
-/

namespace Summoners
set_option autoImplicit false

open Effects RunToCompletion

def ManaBank.pool (bank : ManaBank) : ManaType → UInt32
  | .matter => bank.matter
  | .mind => bank.mind
  | .spirit => bank.spirit

/-! ## A payment is exact -/

namespace Payment

/-- What a payment takes from one pool. -/
def spent (payment : Payment) (t : ManaType) : ℕ :=
  ((payment.deductions.filter (fun d => d.manaType = t)).map (fun d => d.amount.toNat)).sum

theorem Pools.get_add (pools : Pools) (t u : ManaType) (n : ℤ) :
    (pools.add t n).get u = pools.get u + if u = t then n else 0 := by
  cases t <;> cases u <;> simp [Pools.add, Pools.get]

theorem payGeneric_get (named : ManaType → Bool) (t : ManaType) :
    ∀ (n : ℕ) (remaining spent : Pools),
      (payGeneric named n remaining spent).1.get t + (payGeneric named n remaining spent).2.get t =
          remaining.get t + spent.get t ∧
        spent.get t ≤ (payGeneric named n remaining spent).2.get t
  | 0, _, _ => by simp [payGeneric]
  | n + 1, remaining, spent => by
      obtain ⟨hsum, hle⟩ := payGeneric_get named t n
        (remaining.add (pickLargestPool remaining named) (-1))
        (spent.add (pickLargestPool remaining named) 1)
      unfold payGeneric
      simp only [Pools.get_add] at hsum hle ⊢
      split at hsum <;> omega

theorem unsignedNonnegative_toNat {v : ℤ} (h : 0 ≤ v) (hv : v ≤ u32Max) :
    (unsignedNonnegative v).toNat = v.toNat := by
  unfold unsignedNonnegative
  rw [if_pos ⟨h, hv⟩]
  unfold u32Max at hv
  simp
  omega

theorem deductionAmount_toNat {v : ℤ} (h : 0 ≤ v) (hv : v ≤ u32Max) :
    (deductionAmount v).toNat = v.toNat := by
  unfold deductionAmount
  rw [if_pos ⟨h, hv⟩]
  unfold u32Max at hv
  simp
  omega

/-- The pools as integers, and the bounds of their width. -/
theorem toArray_get (bank : ManaBank) (t : ManaType) :
    (toArray bank).get t = (bank.pool t).toNat := by
  cases t <;> rfl

theorem pool_le (bank : ManaBank) (t : ManaType) : (bank.pool t).toNat ≤ u32Max := by
  have := (bank.pool t).toNat_lt
  unfold u32Max
  omega

/-- The typed part of a cost. -/
def typedCost (cost : Cost) : Pools := ⟨cost.matter.toNat, cost.mind.toNat, cost.spirit.toNat⟩

theorem typedRemaining_get (bank : ManaBank) (cost : Cost) (t : ManaType) :
    (typedRemaining bank cost).get t + (typedCost cost).get t = (bank.pool t).toNat := by
  unfold typedRemaining
  cases t <;> simp only [Pools.add, Pools.get, toArray, typedCost, ManaBank.pool] <;> omega

theorem typedCost_nonneg (cost : Cost) (t : ManaType) : 0 ≤ (typedCost cost).get t := by
  cases t <;> simp [typedCost, Pools.get]

theorem spent_deductions (f : ManaType → ℤ) (bank : ManaBank) (t : ManaType) :
    spent ⟨bank, poolOrder.filterMap (fun u =>
      if 0 < f u then some ⟨u, deductionAmount (f u)⟩ else none)⟩ t =
        if 0 < f t then (deductionAmount (f t)).toNat else 0 := by
  unfold spent poolOrder
  by_cases hm : 0 < f .matter <;> by_cases hn : 0 < f .mind <;> by_cases hs : 0 < f .spirit <;>
    cases t <;> simp [hm, hn, hs]

/-- Where the pools left and the pools spent add up to the bank, so do the payment's. -/
theorem settle_exact {bank : ManaBank} {cost : Cost} {remaining generic : Pools} {payment : Payment}
    (hsum : ∀ t, remaining.get t + (typedCost cost).get t + generic.get t = (bank.pool t).toNat)
    (hgeneric : ∀ t, 0 ≤ generic.get t) (h : settle cost remaining generic = .ok payment)
    (t : ManaType) :
    (payment.bank.pool t).toNat + payment.spent t = (bank.pool t).toNat := by
  unfold settle at h
  split at h
  · cases h
  · rename_i hneg
    simp only [not_or, not_lt] at hneg
    cases h
    have hleft : 0 ≤ remaining.get t := by
      cases t
      · exact hneg.1
      · exact hneg.2.1
      · exact hneg.2.2
    have htotal : (⟨cost.matter.toNat + generic.matter, cost.mind.toNat + generic.mind,
        cost.spirit.toNat + generic.spirit⟩ : Pools).get t =
          (typedCost cost).get t + generic.get t := by cases t <;> rfl
    have hcost := typedCost_nonneg cost t
    have hg := hgeneric t
    have hs := hsum t
    have hle := pool_le bank t
    rw [spent_deductions, htotal]
    have hbank : ManaBank.pool ⟨unsignedNonnegative remaining.matter,
        unsignedNonnegative remaining.mind, unsignedNonnegative remaining.spirit⟩ t =
          unsignedNonnegative (remaining.get t) := by cases t <;> rfl
    rw [hbank, unsignedNonnegative_toNat hleft (by omega)]
    split
    · rw [deductionAmount_toNat (by omega) (by omega)]
      omega
    · omega

/-- **A payment is exact.** What is left in a pool and what the payment takes from it are what was
there. -/
theorem deduct_exact {bank : ManaBank} {cost : Cost} {hint : Option ManaType} {payment : Payment}
    (h : deduct bank cost hint = .ok payment) (t : ManaType) :
    (payment.bank.pool t).toNat + payment.spent t = (bank.pool t).toNat := by
  unfold deduct at h
  simp only at h
  split at h
  · cases h
  · cases hint with
    | some hintType =>
        simp only at h
        split at h
        · cases h
        · refine settle_exact (fun u => ?_) (fun u => ?_) h t
          · have := typedRemaining_get bank cost u
            simp only [Pools.get_add]
            cases u <;> simp only [Pools.get] at this ⊢ <;> split <;> omega
          · simp only [Pools.get_add]
            cases u <;> simp only [Pools.get] <;> split <;> omega
    | none =>
        refine settle_exact (fun u => ?_) (fun u => ?_) h t
        · have := typedRemaining_get bank cost u
          have hpaid := (payGeneric_get (typedNamed cost) u cost.generic.toNat
            (typedRemaining bank cost) ⟨0, 0, 0⟩).1
          have hzero : (⟨0, 0, 0⟩ : Pools).get u = 0 := by cases u <;> rfl
          omega
        · have hpaid := (payGeneric_get (typedNamed cost) u cost.generic.toNat
            (typedRemaining bank cost) ⟨0, 0, 0⟩).2
          have hzero : (⟨0, 0, 0⟩ : Pools).get u = 0 := by cases u <;> rfl
          omega

end Payment

/-! ## What a batch reports -/

/-- One player's pool of one Type. -/
def GameState.pool (s : GameState) (p : PlayerId) (t : ManaType) : ℕ :=
  ((s.player p).mana.pool t).toNat

def GameEvent.produces (p : PlayerId) (t : ManaType) : GameEvent → Bool
  | .manaProduced q _ u | .coinConverted q u => decide (q = p ∧ u = t)
  | _ => false

def GameEvent.deducts (p : PlayerId) (t : ManaType) : GameEvent → ℕ
  | .manaDeducted q u amount => if q = p ∧ u = t then amount.toNat else 0
  | _ => 0

def GameEvent.isConversion : GameEvent → Bool
  | .coinConverted _ _ => true
  | _ => false

/-- The `ManaProduced` and `CoinConverted` events of a batch for one pool. -/
def produced (p : PlayerId) (t : ManaType) (es : List GameEvent) : ℕ :=
  es.countP (GameEvent.produces p t)

/-- The sum of the `ManaDeducted` amounts of a batch for one pool. -/
def deducted (p : PlayerId) (t : ManaType) (es : List GameEvent) : ℕ :=
  (es.map (GameEvent.deducts p t)).sum

/-- No event of the batch moves Mana. -/
def Manaless (es : List GameEvent) : Prop :=
  ∀ e ∈ es, ∀ p t, e.produces p t = false ∧ e.deducts p t = 0 ∧ e.isConversion = false

section
variable {es es' : List GameEvent} {p : PlayerId} {t : ManaType}

@[simp] theorem produced_nil : produced p t [] = 0 := rfl

@[simp] theorem deducted_nil : deducted p t [] = 0 := rfl

@[simp] theorem produced_append : produced p t (es ++ es') = produced p t es + produced p t es' :=
  List.countP_append

@[simp] theorem deducted_append : deducted p t (es ++ es') = deducted p t es + deducted p t es' := by
  simp [deducted]

theorem produced_cons {e : GameEvent} :
    produced p t (e :: es) = produced p t es + if e.produces p t then 1 else 0 := List.countP_cons

theorem deducted_cons {e : GameEvent} :
    deducted p t (e :: es) = e.deducts p t + deducted p t es := by simp [deducted]

theorem manaless_nil : Manaless [] := by simp [Manaless]

theorem Minor.manaless (h : Minor es) : Manaless es := by
  intro e he p t
  have := h e he
  cases e <;> first | exact ⟨rfl, rfl, rfl⟩ | cases this

theorem Manaless.produced (h : Manaless es) : produced p t es = 0 := by
  rw [Summoners.produced, List.countP_eq_zero]
  intro e he
  simp [(h e he p t).1]

theorem Manaless.deducted (h : Manaless es) : deducted p t es = 0 := by
  rw [Summoners.deducted, List.sum_eq_zero]
  intro n hn
  obtain ⟨e, he, rfl⟩ := List.mem_map.mp hn
  exact (h e he p t).2.1

/-- The events of a payment deduct what it spends, from the payer only. -/
theorem deducted_payment (payment : Payment) (c : PlayerId) :
    deducted p t (payment.events c) = if c = p then payment.spent t else 0 := by
  unfold deducted Payment.events Payment.spent
  induction payment.deductions with
  | nil => simp
  | cons d ds ih =>
      simp only [List.map_cons, List.sum_cons, List.map_map] at ih ⊢
      rw [ih]
      by_cases hc : c = p <;> by_cases ht : d.manaType = t <;>
        simp [GameEvent.deducts, hc, ht]

theorem produced_payment (payment : Payment) (c : PlayerId) :
    produced p t (payment.events c) = 0 := by
  rw [produced, List.countP_eq_zero]
  intro e he
  obtain ⟨d, -, rfl⟩ := List.mem_map.mp he
  simp [GameEvent.produces]

theorem unconverted_payment (payment : Payment) (c : PlayerId) :
    ∀ e ∈ payment.events c, e.isConversion = false := by
  intro e he
  obtain ⟨d, -, rfl⟩ := List.mem_map.mp he
  rfl

end

/-! ## Steps that produce -/

/-- A step that deducts nothing: every pool grows by what is reported, in 32 bits, and the Coin
stays as it is. -/
structure Produces (s : GameState) (es : List GameEvent) (t : GameState) : Prop where
  coin : t.coin = s.coin
  unconverted : ∀ e ∈ es, e.isConversion = false
  undeducted : ∀ p ty, deducted p ty es = 0
  pool : ∀ p ty, t.pool p ty = (s.pool p ty + produced p ty es) % 4294967296

theorem GameState.pool_lt (s : GameState) (p : PlayerId) (ty : ManaType) :
    s.pool p ty < 4294967296 := by
  have := ((s.player p).mana.pool ty).toNat_lt
  unfold GameState.pool
  omega

section
variable {s t u : GameState} {es es' : List GameEvent}

/-- A step that moves no Mana. -/
theorem Produces.of_same (hcoin : t.coin = s.coin)
    (hmana : ∀ p, (t.player p).mana = (s.player p).mana) (hes : Manaless es) :
    Produces s es t where
  coin := hcoin
  unconverted := fun e he => (hes e he .one .matter).2.2
  undeducted := fun _ _ => hes.deducted
  pool := fun p ty => by
    have := s.pool_lt p ty
    have hsame : t.pool p ty = s.pool p ty := by simp only [GameState.pool, hmana]
    rw [hes.produced, hsame]
    omega

theorem Produces.refl (s : GameState) : Produces s [] s :=
  .of_same rfl (fun _ => rfl) manaless_nil

theorem Produces.trans (h : Produces s es t) (h' : Produces t es' u) :
    Produces s (es ++ es') u where
  coin := h'.coin.trans h.coin
  unconverted := fun e he => (List.mem_append.mp he).elim (h.unconverted e) (h'.unconverted e)
  undeducted := fun p ty => by rw [deducted_append, h.undeducted, h'.undeducted]
  pool := fun p ty => by
    have hp := h.pool p ty
    have hp' := h'.pool p ty
    rw [produced_append]
    omega

theorem Produces.cons {e : GameEvent} (he : Manaless [e]) (h : Produces s es t) :
    Produces s (e :: es) t :=
  Produces.trans (.of_same rfl (fun _ => rfl) he) h

/-- One banked unit. -/
theorem bank_pool (ps : PlayerState) (ty uy : ManaType) :
    ((Upkeep.bank ps ty).mana.pool uy).toNat =
      ((ps.mana.pool uy).toNat + if ty = uy then 1 else 0) % 4294967296 := by
  have h := (ps.mana.pool uy).toNat_lt
  cases ty <;> cases uy <;>
    simp [Upkeep.bank, ManaBank.pool]

theorem Produces.banked {c : PlayerId} {ty : ManaType} {source : ManaSource} :
    Produces s [.manaProduced c source ty] (s.setPlayer c (Upkeep.bank (s.player c) ty)) where
  coin := rfl
  unconverted := by simp [GameEvent.isConversion]
  undeducted := fun _ _ => rfl
  pool := fun p uy => by
    have hlt := s.pool_lt p uy
    simp only [GameState.pool, GameState.player_setPlayer, produced_cons, produced_nil,
      GameEvent.produces, Nat.zero_add, decide_eq_true_eq] at hlt ⊢
    by_cases hp : p = c
    · subst hp
      simp [bank_pool]
    · have hp' : ¬c = p := fun h => hp h.symm
      simp [hp, hp', Nat.mod_eq_of_lt hlt]

/-- Writes to one player that keep the pools. -/
theorem setPlayer_mana {c : PlayerId} {ps : PlayerState} (h : ps.mana = (s.player c).mana)
    (p : PlayerId) : ((s.setPlayer c ps).player p).mana = (s.player p).mana := by
  rw [GameState.player_setPlayer]
  split
  · rename_i hp
    rw [hp, h]
  · rfl

theorem LeafStep.produces {source : EffectSource} {targets : List Position} {leaf : EffectLeaf}
    (h : LeafStep s source targets leaf t es) :
    Produces s es t := by
  cases h with
  | quiet hm => exact .of_same rfl (fun _ => rfl) hm.manaless
  | touched _ _ _ hm => exact .of_same rfl (setPlayer_mana (PlayerState.setAt_mana _ _ _)) hm.manaless
  | hit _ _ hm => exact .of_same rfl (setPlayer_mana (PlayerState.setAt_mana _ _ _)) hm.manaless
  | zones hz hm => exact .of_same rfl (setPlayer_mana hz.mana) hm.manaless
  | drewOut hz hm =>
      refine .of_same rfl (setPlayer_mana hz.mana) ?_
      intro e he
      rcases List.mem_append.mp he with he | he
      · exact hm.manaless e he
      · rw [List.mem_singleton.mp he]
        exact fun _ _ => ⟨rfl, rfl, rfl⟩
  | moved _ _ => exact .of_same rfl (setPlayer_mana rfl) manaless_nil
  | exchanged _ _ =>
      exact .of_same rfl (setPlayer_mana rfl) (Minor.manaless (by simp [GameEvent.minor]))
  | produced _ => exact .banked
  | paused _ => exact .of_same rfl (fun _ => rfl) manaless_nil

theorem applyLeaves_produces {source : EffectSource} {targets : List Position}
    {leaves : List EffectLeaf} (h : applyLeaves s source targets leaves = (t, es))
    (hs : s.status = .playing) : Produces s es t :=
  applyLeaves_rel (R := Produces) h hs Produces.refl (fun _ h h' => h.trans h')
    (fun _ _ h => h.produces)

/-- One event that moves no Mana. -/
theorem manaless_single {e : GameEvent}
    (he : ∀ p ty, e.produces p ty = false ∧ e.deducts p ty = 0 ∧ e.isConversion = false) :
    Manaless [e] := by
  intro e' h'
  rw [List.mem_singleton.mp h']
  exact he

theorem ItemStep.produces {item : WorkItem} (h : ItemStep s item t es)
    (hs : s.status = .playing) : Produces s es t := by
  cases h with
  | readied => exact .of_same rfl (setPlayer_mana rfl) (Minor.manaless (by
      simp [Upkeep.readyAll, GameEvent.minor]))
  | drew _ => exact .of_same rfl (setPlayer_mana rfl) (Minor.manaless (by simp [GameEvent.minor]))
  | deckEmpty => exact .of_same rfl (fun _ => rfl) (manaless_single fun _ _ => ⟨rfl, rfl, rfl⟩)
  | produced _ => exact .banked
  | discarded _ _ =>
      refine .of_same rfl (fun p => ?_) (manaless_single fun _ _ => ⟨rfl, rfl, rfl⟩)
      rw [Triggers.discoverFront, GameState.pushFront_player, discardSummon_player]
      split <;> simp
  | lossRecorded => exact .of_same rfl (setPlayer_mana rfl) manaless_nil
  | promoted _ _ =>
      exact .of_same rfl (setPlayer_mana rfl) (manaless_single fun _ _ => ⟨rfl, rfl, rfl⟩)
  | movement =>
      have hmark : ∀ step c p, Produces s [] (Triggers.markMainEntry s step c p) := by
        intro step c p
        unfold Triggers.markMainEntry
        split
        · exact .of_same rfl (setPlayer_mana rfl) manaless_nil
        · exact .refl s
      exact (hmark _ _ _).trans (.of_same rfl (fun _ => rfl) manaless_nil)
  | opened _ => exact .of_same rfl (fun _ => rfl) (manaless_single fun _ _ => ⟨rfl, rfl, rfl⟩)
  | fired _ hl =>
      exact .cons (manaless_single fun _ _ => ⟨rfl, rfl, rfl⟩) (applyLeaves_produces hl hs)
  | lost _ => exact .of_same rfl (fun _ => rfl) (manaless_single fun _ _ => ⟨rfl, rfl, rfl⟩)
  | _ => exact .of_same rfl (fun _ => rfl) manaless_nil

theorem placeItem_produces (s : GameState) (item : StackItem) :
    Produces s [] (placeItem s item) := by
  cases item with
  | spell caster card targets =>
      simp only [placeItem, Resolution.placeSpell]
      split <;> exact .of_same rfl (setPlayer_mana rfl) manaless_nil
  | attack _ _ => exact .refl s
  | trigger _ _ _ _ _ _ => exact .refl s

theorem closeSegment_produces (s : GameState) :
    Produces s [] (Resolution.closeSegment s) := by
  unfold Resolution.closeSegment
  split <;> exact .of_same rfl (fun _ => rfl) manaless_nil

theorem drainStep_produces (h : Resolution.drainStep s = some (t, es)) : Produces s es t := by
  obtain ⟨hd, ⟨item, u, es', hst, rfl⟩ | ⟨-, item, work, -, hi⟩⟩ := drainStep_cases h
  · have hpop : Produces s [.stackItemResolved item] (poppedStack s) :=
      .of_same rfl (fun _ => rfl) (manaless_single fun _ _ => ⟨rfl, rfl, rfl⟩)
    have hl : Produces (poppedStack s) es' u := applyLeaves_produces hst.leaves hd.playing
    have hp := ((hpop.trans hl).trans (placeItem_produces u item)).trans (closeSegment_produces _)
    rw [hst.result]
    simpa using hp
  · have hpop : Produces s [] (poppedWork s work) := .of_same rfl (fun _ => rfl) manaless_nil
    exact hpop.trans (hi.produces hd.playing)

/-! ## Steps that pay -/

/-- The ledger of a batch: what it deducts was there, and the pool after is the rest plus what it
produces, in 32 bits. The Coin leaves with a conversion and not otherwise. -/
structure Ledger (s : GameState) (es : List GameEvent) (t : GameState) : Prop where
  covered : ∀ p ty, deducted p ty es ≤ s.pool p ty
  pool : ∀ p ty, t.pool p ty = (s.pool p ty - deducted p ty es + produced p ty es) % 4294967296
  converted : (∃ e ∈ es, e.isConversion = true) → s.coin = some .mk ∧ t.coin = none
  kept : (∀ e ∈ es, e.isConversion = false) → t.coin = s.coin

theorem Produces.ledger (h : Produces s es t) : Ledger s es t where
  covered := fun p ty => by simp [h.undeducted]
  pool := fun p ty => by simp [h.undeducted, h.pool]
  converted := fun ⟨e, he, hc⟩ => by
    rw [h.unconverted e he] at hc
    cases hc
  kept := fun _ => h.coin

theorem Ledger.trans (h : Ledger s es t) (h' : Produces t es' u) : Ledger s (es ++ es') u where
  covered := fun p ty => by simpa [h'.undeducted] using h.covered p ty
  pool := fun p ty => by
    have hp := h.pool p ty
    have hp' := h'.pool p ty
    rw [deducted_append, produced_append, h'.undeducted]
    omega
  converted := fun ⟨e, he, hc⟩ => by
    rcases List.mem_append.mp he with he | he
    · rw [h'.coin]
      exact h.converted ⟨e, he, hc⟩
    · rw [h'.unconverted e he] at hc
      cases hc
  kept := fun hn => by
    rw [h'.coin]
    exact h.kept (fun e he => hn e (List.mem_append_left _ he))

/-- A payment written back to the payer. -/
theorem Ledger.paid {c : PlayerId} {cost : Cost} {hint : Option ManaType} {payment : Payment}
    (hpay : Payment.deduct (s.player c).mana cost hint = .ok payment)
    (hbank : (t.player c).mana = payment.bank)
    (hother : ∀ p, p ≠ c → (t.player p).mana = (s.player p).mana) (hcoin : t.coin = s.coin) :
    Ledger s (payment.events c) t := by
  have hexact : ∀ p ty, t.pool p ty + deducted p ty (payment.events c) = s.pool p ty := by
    intro p ty
    rw [deducted_payment]
    by_cases hp : p = c
    · subst hp
      simpa [GameState.pool, hbank] using Payment.deduct_exact hpay ty
    · have hp' : ¬c = p := fun h => hp h.symm
      simp [GameState.pool, hother p hp, hp']
  refine ⟨fun p ty => ?_, fun p ty => ?_, ?_, fun _ => hcoin⟩
  · have := hexact p ty
    omega
  · have := hexact p ty
    have hlt := s.pool_lt p ty
    rw [produced_payment]
    omega
  · rintro ⟨e, he, hc⟩
    rw [unconverted_payment payment c e he] at hc
    cases hc

/-- The event behind a payment, where nothing else changes. -/
theorem Ledger.reported {e : GameEvent} (h : Ledger s es t)
    (he : ∀ p ty, e.produces p ty = false ∧ e.deducts p ty = 0 ∧ e.isConversion = false) :
    Ledger s (es ++ [e]) t :=
  h.trans (.of_same rfl (fun _ => rfl) (manaless_single he))

theorem Ledger.converted_bank {c : PlayerId} {ty : ManaType} (hcoin : s.coin = some .mk) :
    Ledger s [.coinConverted c ty]
      (({ s with coin := none } : GameState).setPlayer c (Upkeep.bank (s.player c) ty)) where
  covered := fun _ _ => by simp [deducted, GameEvent.deducts]
  pool := fun p uy => by
    have hbanked : Produces s [.manaProduced c .player ty]
        (s.setPlayer c (Upkeep.bank (s.player c) ty)) := .banked
    have hp := hbanked.pool p uy
    have hsame : (({ s with coin := none } : GameState).setPlayer c
        (Upkeep.bank (s.player c) ty)).pool p uy =
          (s.setPlayer c (Upkeep.bank (s.player c) ty)).pool p uy := rfl
    rw [hsame, hp]
    simp [produced_cons, GameEvent.produces, deducted, GameEvent.deducts]
  converted := fun _ => ⟨hcoin, rfl⟩
  kept := fun h => by
    have := h _ (List.mem_singleton_self _)
    cases this

theorem ActionStep.ledger {a : GameAction} (h : ActionStep s a t es) (hs : s.status = .playing) :
    Ledger s es t := by
  cases h with
  | played _ _ _ _ _ _ =>
      exact Produces.ledger (.of_same rfl (setPlayer_mana rfl)
        (manaless_single fun _ _ => ⟨rfl, rfl, rfl⟩))
  | upgraded _ _ _ _ _ _ _ _ _ _ =>
      exact Produces.ledger (.of_same rfl (setPlayer_mana (PlayerState.setAt_mana _ _ _))
        (manaless_single fun _ _ => ⟨rfl, rfl, rfl⟩))
  | cast _ _ _ _ _ hpay =>
      refine Ledger.reported (Ledger.paid hpay ?_ (fun p hp => ?_) rfl) fun _ _ => ⟨rfl, rfl, rfl⟩
      · rw [GameState.player_setPlayer_self]
      · rw [GameState.player_setPlayer_of_ne _ _ _ hp]
        rfl
  | @skill c p _ _ _ x _ _ payment _ _ _ _ _ _ hpay _ _ hl =>
      have hpaid : Ledger s (payment.events c) (s.setPlayer c
          ({ s.player c with mana := payment.bank }.setAt p (some (Skills.exhaust x)))) := by
        refine Ledger.paid hpay ?_ (fun q hq => ?_) rfl
        · rw [GameState.player_setPlayer_self, PlayerState.setAt_mana]
        · rw [GameState.player_setPlayer_of_ne _ _ _ hq]
      have hrun := applyLeaves_produces hl hs
      exact hpaid.trans (.cons (manaless_single fun _ _ => ⟨rfl, rfl, rfl⟩) hrun)
  | retreated _ _ _ hpay =>
      refine Ledger.reported (Ledger.paid hpay ?_ (fun p hp => ?_) rfl) fun _ _ => ⟨rfl, rfl, rfl⟩
      · rw [GameState.pushBack_player, GameState.player_setPlayer_self]
        rfl
      · rw [GameState.pushBack_player, GameState.player_setPlayer_of_ne _ _ _ hp]
        rfl
  | attacked _ _ _ _ hpay =>
      refine Ledger.reported (Ledger.paid hpay ?_ (fun p hp => ?_) rfl) fun _ _ => ⟨rfl, rfl, rfl⟩
      · rw [GameState.player_setPlayer_self]
      · rw [GameState.player_setPlayer_of_ne _ _ _ hp]
        rfl
  | turnEnded _ _ _ _ => exact Produces.ledger (.of_same rfl (fun _ => rfl) manaless_nil)
  | passed _ _ =>
      exact Produces.ledger (.of_same rfl (fun _ => rfl)
        (manaless_single fun _ _ => ⟨rfl, rfl, rfl⟩))
  | passedToStack _ _ _ =>
      exact Produces.ledger (.of_same rfl (fun _ => rfl)
        (manaless_single fun _ _ => ⟨rfl, rfl, rfl⟩))
  | handedOver _ _ _ =>
      refine Produces.ledger (.of_same rfl (fun p => ?_) ?_)
      · obtain ⟨f, -, hf⟩ := handover_player (windowClosed s) p
        rw [hf]
        rfl
      · intro e he p ty
        rcases List.mem_cons.mp he with rfl | he
        · exact ⟨rfl, rfl, rfl⟩
        · rw [List.mem_singleton.mp he]
          exact ⟨rfl, rfl, rfl⟩
  | converted _ _ hcoin _ => exact .converted_bank hcoin
  | manaChosen _ _ =>
      have hclear : Produces s [] { s with pending := none } :=
        .of_same rfl (fun _ => rfl) manaless_nil
      exact Produces.ledger (hclear.trans .banked)
  | promotionChosen _ _ =>
      exact Produces.ledger (.of_same rfl (setPlayer_mana rfl)
        (manaless_single fun _ _ => ⟨rfl, rfl, rfl⟩))
  | prizeChosen _ _ =>
      exact Produces.ledger (.of_same rfl (setPlayer_mana rfl)
        (manaless_single fun _ _ => ⟨rfl, rfl, rfl⟩))
  | resigned =>
      exact Produces.ledger (.of_same rfl (fun _ => rfl)
        (manaless_single fun _ _ => ⟨rfl, rfl, rfl⟩))

/-- **The ledger of one accepted action.** -/
theorem accepted_ledger {a : GameAction} {o : ActionOutcome} (h : Accepted s a o) :
    Ledger s o.events o.state := by
  obtain ⟨tr, hc, he⟩ := accepted_iff.mp h
  rw [he]
  refine hc.induct (I := fun tr u => Ledger s (facts tr) u) (fun ha => ?_) (fun hl hn => ?_)
  · obtain ⟨hs, hst, -⟩ := accept_step ha
    simpa using hst.ledger hs
  · simpa using hl.trans (drainStep_produces hn)

/-- A Coin that has left the game stays out. -/
theorem coin_gone {evs : List GameEvent} (h : Reachable s evs t) (hs : s.coin = none) :
    t.coin = none := by
  induction h with
  | refl => exact hs
  | @apply evs u a o _ ha ih =>
      have hl := accepted_ledger ha
      by_cases hc : ∃ e ∈ o.events, e.isConversion = true
      · exact (hl.converted hc).2
      · have hn : ∀ e ∈ o.events, e.isConversion = false := fun e he =>
          Bool.eq_false_iff.mpr (fun h => hc ⟨e, he, h⟩)
        rw [hl.kept hn, ih]

end

/-- **The Mana ledger.** The pool after an accepted action is the pool before, plus the Mana the
batch reports as produced or converted, minus the Mana it reports as deducted, as long as that value
fits in 32 bits. The Coin leaves exactly with a conversion, and once gone it is gone in every state
reached from there. -/
theorem mana_ledger {s : GameState} {a : GameAction} {o : ActionOutcome} (h : Accepted s a o) :
    (∀ p ty, s.pool p ty + produced p ty o.events ≤ u32Max + deducted p ty o.events →
        o.state.pool p ty + deducted p ty o.events = s.pool p ty + produced p ty o.events) ∧
      ((s.coin = some .mk ∧ o.state.coin = none) ↔ ∃ p ty, .coinConverted p ty ∈ o.events) ∧
      (s.coin = none → ∀ evs t, Reachable o.state evs t → t.coin = none) := by
  have hl := accepted_ledger h
  refine ⟨fun p ty hfits => ?_, ⟨fun ⟨hsome, hnone⟩ => ?_, fun ⟨p, ty, he⟩ => ?_⟩,
    fun hs evs t hr => coin_gone hr ?_⟩
  · have hcovered := hl.covered p ty
    have hpool := hl.pool p ty
    unfold u32Max at hfits
    omega
  · by_contra hn
    have hkept := hl.kept (fun e he => by
      cases e <;> first | rfl | exact absurd ⟨_, _, he⟩ hn)
    rw [hkept, hsome] at hnone
    cases hnone
  · exact hl.converted ⟨_, he, rfl⟩
  · by_cases hc : ∃ e ∈ o.events, e.isConversion = true
    · exact (hl.converted hc).2
    · have hn : ∀ e ∈ o.events, e.isConversion = false := fun e he =>
        Bool.eq_false_iff.mpr (fun h => hc ⟨e, he, h⟩)
      rw [hl.kept hn, hs]

open Fixtures in
/-- The Coin of Player Two, converted. -/
theorem mana_ledger_coin :
    ∃ s a o, Accepted s a o ∧ s.pool .two .matter = 0 ∧ o.state.pool .two .matter = 1 ∧
      s.coin = some .mk ∧ o.state.coin = none := by
  have hdemo : (demoStep ⟨[summon 1 40 .base [] [.matter]]⟩
      { facing (lone (inPlay 1 1)) (lone (inPlay 2 1)) with
        activePlayer := .two, coin := some .mk } [] (.convertCoin .two .matter)).map
          (fun r => (r.2.1.pool .two .matter, r.2.1.coin, r.2.2.events)) =
        some (0, some .mk, [.coinConverted .two .matter]) := by decide +kernel
  obtain ⟨⟨start, s, o⟩, hr, hv⟩ := Option.map_eq_some_iff.mp hdemo
  simp only [Prod.mk.injEq] at hv
  obtain ⟨hpool, hcoin, hevents⟩ := hv
  obtain ⟨-, -, ha⟩ := accepted_of_demoStep hr
  obtain ⟨hledger, hconverted, -⟩ := mana_ledger ha
  have hp : produced .two .matter o.events = 1 := by rw [hevents]; rfl
  have hd : deducted .two .matter o.events = 0 := by rw [hevents]; rfl
  have := hledger .two .matter (by rw [hpool, hp, hd]; decide)
  exact ⟨s, _, o, ha, hpool, by omega, hcoin, (hconverted.mpr ⟨_, _, by
    rw [hevents]; exact List.mem_singleton_self _⟩).2⟩

end Summoners
