import Summoners.Proof.MainFilled

/-! # Every Main destruction is accounted once

Three ledgers over the facts of a run: the losses recorded, the promotions and the Prizes recovered,
each against the destructions in Main. A destruction under way, or a decision it has asked for, is
what an entry can still be owed to. They balance over runs in which a destruction, once begun, has
found the Summon it is about.
-/

namespace Summoners
set_option autoImplicit false

open Destruction Function RunToCompletion

/-! ## Counting -/

/-- A destruction in `p`'s Main: its owner, on whose board it stood (`Owned`). -/
def GameEvent.destroysMainOf (p : PlayerId) : GameEvent → Bool
  | .summonDestroyed .main owner => owner = p
  | _ => false

def GameEvent.promotesFor (p : PlayerId) : GameEvent → Bool
  | .summonPromoted player _ => player = p
  | _ => false

def GameEvent.recoversFor (p : PlayerId) : GameEvent → Bool
  | .prizeRecovered player _ => player = p
  | _ => false

def destroyed (evs : List GameEvent) (p : PlayerId) : ℕ := evs.countP (GameEvent.destroysMainOf p)

def promoted (evs : List GameEvent) (p : PlayerId) : ℕ := evs.countP (GameEvent.promotesFor p)

def recovered (evs : List GameEvent) (p : PlayerId) : ℕ := evs.countP (GameEvent.recoversFor p)

section
variable {evs es : List GameEvent} {p q : PlayerId}

theorem destroyed_append : destroyed (evs ++ es) p = destroyed evs p + destroyed es p :=
  List.countP_append

theorem promoted_append : promoted (evs ++ es) p = promoted evs p + promoted es p :=
  List.countP_append

theorem recovered_append : recovered (evs ++ es) p = recovered evs p + recovered es p :=
  List.countP_append

/-- Facts that count in no ledger. -/
theorem Quiet.counts (h : Quiet es) :
    destroyed es p = 0 ∧ promoted es p = 0 ∧ recovered es p = 0 := by
  refine ⟨?_, ?_, ?_⟩ <;> refine List.countP_eq_zero.mpr (fun e he hcount => ?_) <;>
    have hq := h e he
  · cases e with
    | summonDestroyed position owner =>
        cases position with
        | main => cases hq
        | bench slot => cases hcount
    | _ => cases hcount
  · cases e with
    | summonPromoted player slot => cases hq
    | _ => cases hcount
  · cases e with
    | prizeRecovered player card => cases hq
    | _ => cases hcount

@[simp] theorem counts_nil :
    destroyed [] p = 0 ∧ promoted [] p = 0 ∧ recovered [] p = 0 := ⟨rfl, rfl, rfl⟩

@[simp] theorem counts_destroyed :
    destroyed [.summonDestroyed .main q] p = (if q = p then 1 else 0) ∧
      promoted [.summonDestroyed .main q] p = 0 ∧ recovered [.summonDestroyed .main q] p = 0 := by
  refine ⟨?_, rfl, rfl⟩
  simp [destroyed, GameEvent.destroysMainOf]

@[simp] theorem counts_promoted {slot : BenchSlot} :
    destroyed [.summonPromoted q slot] p = 0 ∧
      promoted [.summonPromoted q slot] p = (if q = p then 1 else 0) ∧
        recovered [.summonPromoted q slot] p = 0 := by
  refine ⟨rfl, ?_, rfl⟩
  simp [promoted, GameEvent.promotesFor]

@[simp] theorem counts_recovered {card : CardInstanceId} :
    destroyed [.prizeRecovered q card] p = 0 ∧ promoted [.prizeRecovered q card] p = 0 ∧
      recovered [.prizeRecovered q card] p = (if q = p then 1 else 0) := by
  refine ⟨rfl, rfl, ?_⟩
  simp [recovered, GameEvent.recoversFor]

end

/-! ## The losses -/

/-- The losses recorded since the start are the destructions, but for one just discarded. -/
def LossLedger (start : Roster) (evs : List GameEvent) (r : Roster) (current : Current) : Prop :=
  ∀ p, (r.losses p).toNat + (if current = some (p, .loss) then 1 else 0) =
    (start.losses p).toNat + destroyed evs p

section
variable {start r r' : Roster} {evs es : List GameEvent} {current next : Current}

theorem LossLedger.step (h : LossLedger start evs r current) (hs : MainStep r current r' next es)
    (hbegun : ∀ p, current = none → next = some (p, .loss) → es = [.summonDestroyed .main p])
    (hbelow : ∀ p, current = some (p, .loss) → next = some (p, .prize) → r.losses p ≠ 255) :
    LossLedger start (evs ++ es) r' next := by
  intro q
  have hq := h q
  rw [destroyed_append]
  cases hs with
  | aside hf quiet =>
      rw [hf.losses, (quiet.counts (p := q)).1]
      exact hq
  | @discarded p c _ =>
      have hown := hbegun p rfl rfl
      obtain rfl : c = p := by simpa using hown
      simp only [counts_destroyed] at hq ⊢
      by_cases hqc : c = q
      · subst hqc
        simp at hq ⊢
        omega
      · simp [hqc] at hq ⊢
        omega
  | @missed p => cases hbegun p rfl rfl
  | @recorded p =>
      have hlt := hbelow p rfl rfl
      by_cases hqp : p = q
      · subst hqp
        have hadd : (r.losses p + 1).toNat = (r.losses p).toNat + 1 := by
          have hne : (r.losses p).toNat ≠ 255 := fun he => hlt (UInt8.toNat_inj.mp he)
          have hle := (r.losses p).toNat_lt
          rw [UInt8.toNat_add, UInt8.toNat_one, Nat.mod_eq_of_lt (by omega)]
        simp [hadd] at hq ⊢
        omega
      · simp [hqp, Ne.symm hqp] at hq ⊢
        exact hq
  | _ => simpa using hq

theorem LossLedger.answer (h : LossLedger start evs r current) (ha : Answer r current r' es) :
    LossLedger start (evs ++ es) r' current := by
  intro q
  have hq := h q
  rw [destroyed_append]
  cases ha with
  | aside hf quiet =>
      rw [hf.losses, (quiet.counts (p := q)).1]
      exact hq
  | arrived _ quiet =>
      rw [(quiet.counts (p := q)).1]
      exact hq
  | promoted _ _ => simpa using hq
  | recovered _ _ => simpa using hq

end

/-! ## The promotions -/

def Stage.beforePromotion : Stage → Bool
  | .loss | .prize | .promote => true
  | .consequences | .verdict => false

/-- A promotion that is still to come: the destruction under way has not got to it, or has asked for
it. -/
def Awaits (r : Roster) (current : Current) (p : PlayerId) : Prop :=
  r.choice = some (.promotion p) ∨ ∃ stage, current = some (p, stage) ∧ stage.beforePromotion = true

/-- A destruction empties Main and a promotion fills it: both are counted by an empty Main. A
stranded player is past both. -/
structure PromotionLedger (start : Roster) (evs : List GameEvent) (r : Roster) (current : Current)
    (p : PlayerId) : Prop where
  balance : promoted evs p + (if r.main p = true then 0 else 1) =
    destroyed evs p + (if start.main p = true then 0 else 1)
  vacated : Awaits r current p → r.main p = false
  stranded : Stranded start p → r.main p = false ∧ r.choice ≠ some (.promotion p) ∧
    ∀ stage, current ≠ some (p, stage)

section
variable {start r r' : Roster} {evs es : List GameEvent} {current next : Current}

theorem promotionLedger_start (hvacant : ∀ p, start.choice = some (.promotion p) →
    start.main p = false) (p : PlayerId) : PromotionLedger start [] start none p where
  balance := by simp [promoted, destroyed]
  vacated := by
    rintro (hc | ⟨stage, hcur, -⟩)
    · exact hvacant p hc
    · cases hcur
  stranded h := ⟨h.1, h.2, by simp⟩

/-- A step that neither empties nor fills Main, counts nothing and asks for no promotion. -/
theorem PromotionLedger.keep {q : PlayerId} (h : PromotionLedger start evs r current q)
    (hmain : r'.main q = r.main q)
    (hcounts : destroyed es q = 0 ∧ promoted es q = 0)
    (hawaits : Awaits r' next q → Awaits r current q)
    (hstranded : Stranded start q → r'.choice ≠ some (.promotion q) ∧
      ∀ stage, next ≠ some (q, stage)) : PromotionLedger start (evs ++ es) r' next q where
  balance := by
    rw [promoted_append, destroyed_append, hcounts.1, hcounts.2, hmain]
    exact h.balance
  vacated ha := by
    rw [hmain]
    exact h.vacated (hawaits ha)
  stranded hs := by
    rw [hmain]
    exact ⟨(h.stranded hs).1, hstranded hs⟩

/-- The steps of a destruction of `p` that leave its Main alone. -/
theorem PromotionLedger.advance {p q : PlayerId} {stage stage' : Stage}
    (h : PromotionLedger start evs r (some (p, stage)) q) (hmain : r'.main = r.main)
    (hchoice : r'.choice = some (.promotion q) → r.choice = some (.promotion q) ∨
      (q = p ∧ stage.beforePromotion = true))
    (hstage : stage'.beforePromotion = true → stage.beforePromotion = true) :
    PromotionLedger start (evs ++ []) r' (some (p, stage')) q := by
  refine h.keep (congrFun hmain q) (by simp) ?_ ?_
  · rintro (hc | ⟨s, hcur, hs⟩)
    · exact (hchoice hc).imp id (fun ⟨hqp, hs⟩ => ⟨stage, by rw [hqp], hs⟩)
    · cases hcur
      exact .inr ⟨stage, rfl, hstage hs⟩
  · intro hx
    obtain ⟨-, hnone, hcur⟩ := h.stranded hx
    have hqp : q ≠ p := fun hqp => hcur stage (by rw [hqp])
    refine ⟨fun hc => ?_, fun s hs => ?_⟩
    · rcases hchoice hc with hc | ⟨he, -⟩
      · exact hnone hc
      · exact hqp he
    · cases hs
      exact hqp rfl

/-- Main of `p` filled from the Bench while a promotion of `p` is awaited. -/
theorem PromotionLedger.promote {p q : PlayerId} {slot : BenchSlot}
    (hp : PromotionLedger start evs r current p) (h : PromotionLedger start evs r current q)
    (hawaits : Awaits r current p) (hmain : r'.main = update r.main p true)
    (hchoice : r'.choice = none)
    (hnext : ∀ stage, next = some (q, stage) → q ≠ p → current = some (q, stage))
    (hdone : ∀ stage, next = some (p, stage) → stage.beforePromotion = false) :
    PromotionLedger start (evs ++ [.summonPromoted p slot]) r' next q := by
  by_cases hqp : q = p
  · subst hqp
    have hvacant := h.vacated hawaits
    have hfilled : r'.main q = true := by rw [hmain, update_self]
    refine ⟨?_, ?_, ?_⟩
    · have hbalance := h.balance
      simp only [hvacant] at hbalance
      simp only [promoted_append, destroyed_append, counts_promoted, hfilled]
      simp at hbalance ⊢
      omega
    · rintro (hc | ⟨stage, hcur, hs⟩)
      · rw [hchoice] at hc
        cases hc
      · rw [hdone stage hcur] at hs
        cases hs
    · intro hx
      obtain ⟨-, hnone, hcur⟩ := h.stranded hx
      rcases hawaits with hc | ⟨stage, hc, -⟩
      · exact absurd hc hnone
      · exact absurd hc (hcur stage)
  · refine h.keep (by rw [hmain, update_of_ne hqp]) (by simp [Ne.symm hqp]) ?_ ?_
    · rintro (hc | ⟨stage, hcur, hs⟩)
      · rw [hchoice] at hc
        cases hc
      · exact .inr ⟨stage, hnext stage hcur hqp, hs⟩
    · intro hx
      refine ⟨by rw [hchoice]; simp, fun stage hcur => ?_⟩
      exact (h.stranded hx).2.2 stage (hnext stage hcur hqp)

theorem PromotionLedger.step (h : ∀ p, PromotionLedger start evs r current p)
    (hs : MainStep r current r' next es) (hchoice : r.choice = none)
    (hbegun : ∀ p, current = none → next = some (p, .loss) → es = [.summonDestroyed .main p])
    (q : PlayerId) : PromotionLedger start (evs ++ es) r' next q := by
  have hq := h q
  cases hs with
  | aside hf quiet =>
      obtain ⟨hd, hp, -⟩ := quiet.counts (p := q)
      refine hq.keep (congrFun hf.main q) ⟨hd, hp⟩ ?_ ?_
      · unfold Awaits
        rw [hf.choice]
        exact id
      · intro hx
        rw [hf.choice]
        exact (hq.stranded hx).2
  | @discarded p c hmain =>
      have hown := hbegun p rfl rfl
      obtain rfl : c = p := by simpa using hown
      by_cases hqc : q = c
      · subst hqc
        refine ⟨?_, fun _ => update_self q false r.main, fun hx => ?_⟩
        · have hbalance := hq.balance
          simp only [hmain] at hbalance
          simp only [promoted_append, destroyed_append, counts_destroyed, update_self]
          simp at hbalance ⊢
          omega
        · rw [(hq.stranded hx).1] at hmain
          cases hmain
      · refine hq.keep (update_of_ne hqc _ _) (by simp [Ne.symm hqc]) ?_ ?_
        · rintro (hc | ⟨stage, hcur, -⟩)
          · exact .inl hc
          · cases hcur
            exact absurd rfl hqc
        · intro hx
          refine ⟨(hq.stranded hx).2.1, fun stage hcur => ?_⟩
          cases hcur
          exact hqc rfl
  | @missed p => cases hbegun p rfl rfl
  | recorded => exact hq.advance rfl .inl (fun _ => rfl)
  | prizeless _ => exact hq.advance rfl .inl (fun _ => rfl)
  | prizeDue _ => exact hq.advance rfl (fun hc => by cases hc) (fun _ => rfl)
  | unpromoted _ => exact hq.advance rfl .inl (fun _ => rfl)
  | @promoted p slot benched =>
      refine (h p).promote hq (.inr ⟨.promote, rfl, rfl⟩) rfl hchoice ?_ ?_
      · rintro stage ⟨⟩ hqp
        exact absurd rfl hqp
      · rintro stage ⟨⟩
        rfl
  | promotionDue =>
      refine hq.advance rfl (fun hc => ?_) (fun _ => rfl)
      cases hc
      exact .inr ⟨rfl, rfl⟩
  | moved => exact hq.advance rfl .inl (fun hs => by cases hs)
  | spared _ =>
      refine hq.keep rfl (by simp) ?_ ?_
      · rintro (hc | ⟨stage, hcur, -⟩)
        · exact .inl hc
        · cases hcur
      · intro hx
        exact ⟨(hq.stranded hx).2.1, by simp⟩

theorem PromotionLedger.answer (h : ∀ p, PromotionLedger start evs r current p)
    (ha : Answer r current r' es)
    (honce : ∀ p stage, r.choice = some (.promotion p) → current = some (p, stage) →
      stage.beforePromotion = false)
    (q : PlayerId) : PromotionLedger start (evs ++ es) r' current q := by
  have hq := h q
  cases ha with
  | aside hf quiet =>
      obtain ⟨hd, hp, -⟩ := quiet.counts (p := q)
      refine hq.keep (congrFun hf.main q) ⟨hd, hp⟩ ?_ ?_
      · unfold Awaits
        rw [hf.choice]
        exact id
      · intro hx
        rw [hf.choice]
        exact (hq.stranded hx).2
  | arrived _ quiet =>
      obtain ⟨hd, hp, -⟩ := quiet.counts (p := q)
      exact hq.keep rfl ⟨hd, hp⟩ id (fun hx => (hq.stranded hx).2)
  | @promoted _ p slot benched hchoice =>
      exact (h p).promote hq (.inl hchoice) rfl rfl (fun _ hcur _ => hcur)
        (fun stage hcur => honce p stage hchoice hcur)
  | @recovered _ p card hchoice _ =>
      refine hq.keep rfl (by simp) ?_ ?_
      · rintro (hc | hcur)
        · cases hc
        · exact .inr hcur
      · intro hx
        exact ⟨by simp, (hq.stranded hx).2.2⟩

end

/-! ## The decisions asked for -/

/-- A decision of a destruction belongs to the destruction under way, but for the promotion a
scenario may start with. -/
structure Asked (r : Roster) (current : Current) : Prop where
  promotion : ∀ p, r.choice = some (.promotion p) → current = none ∨ current = some (p, .consequences)
  prize : ∀ c, r.choice = some (.prizePick c) → current = some (c.opponent, .promote)

section
variable {start r r' : Roster} {evs es : List GameEvent} {current next : Current}

theorem asked_of_none (h : r.choice = none) : Asked r current := by
  refine ⟨fun p hp => ?_, fun c hc => ?_⟩
  · rw [h] at hp
    cases hp
  · rw [h] at hc
    cases hc

theorem Asked.step (hs : MainStep r current r' next es) (hchoice : r.choice = none) :
    Asked r' next := by
  cases hs with
  | aside hf _ => exact asked_of_none (hf.choice.trans hchoice)
  | @prizeDue p _ =>
      refine ⟨fun q hq => ?_, fun c hc => ?_⟩
      · cases hq
      · cases hc
        rw [PlayerId.opponent_opponent]
  | @promotionDue p =>
      refine ⟨fun q hq => ?_, fun c hc => ?_⟩
      · cases hq
        exact .inr rfl
      · cases hc
  | _ => exact asked_of_none hchoice

theorem Asked.answer (h : Asked r current) (ha : Answer r current r' es) : Asked r' current := by
  cases ha with
  | aside hf _ =>
      refine ⟨fun p hp => h.promotion p ?_, fun c hc => h.prize c ?_⟩
      · rwa [hf.choice] at hp
      · rwa [hf.choice] at hc
  | arrived _ _ => exact ⟨h.promotion, h.prize⟩
  | promoted _ _ => exact asked_of_none rfl
  | recovered _ _ => exact asked_of_none rfl

theorem Asked.past (h : Asked r current) {p : PlayerId} {stage : Stage}
    (hchoice : r.choice = some (.promotion p)) (hcur : current = some (p, stage)) :
    stage.beforePromotion = false := by
  rcases h.promotion p hchoice with hn | hn
  · rw [hn] at hcur
    cases hcur
  · rw [hn] at hcur
    cases hcur
    rfl

/-! ## The Prizes -/

/-- One for a Prize that is still to be recovered for the destruction under way. -/
def prizeOwed (r : Roster) (current : Current) (p : PlayerId) : ℕ :=
  if current = some (p, .loss) ∨ current = some (p, .prize) ∨
      r.choice = some (.prizePick p.opponent) then 1 else 0

/-- A destruction recovers a Prize as long as there is one. -/
structure PrizeLedger (start : Roster) (evs : List GameEvent) (r : Roster) (current : Current)
    (p : PlayerId) : Prop where
  balance : recovered evs p + r.prizes p = start.prizes p
  bounded : recovered evs p + prizeOwed r current p ≤ destroyed evs p
  tight : r.prizes p ≠ 0 → recovered evs p + prizeOwed r current p = destroyed evs p

/-- A step that counts nothing and leaves as much owed as before, or less if no Prize is left. -/
theorem PrizeLedger.keep {q : PlayerId} (h : PrizeLedger start evs r current q)
    (hprizes : r'.prizes q = r.prizes q)
    (hcounts : destroyed es q = 0 ∧ recovered es q = 0)
    (howed : prizeOwed r' next q ≤ prizeOwed r current q)
    (hsame : r.prizes q ≠ 0 → prizeOwed r' next q = prizeOwed r current q) :
    PrizeLedger start (evs ++ es) r' next q := by
  have hbounded := h.bounded
  refine ⟨?_, ?_, fun hp => ?_⟩ <;> rw [recovered_append, hcounts.2]
  · rw [hprizes]
    exact h.balance
  · rw [destroyed_append, hcounts.1]
    omega
  · rw [hprizes] at hp
    rw [destroyed_append, hcounts.1, hsame hp]
    exact h.tight hp

theorem PrizeLedger.step {q : PlayerId} (h : PrizeLedger start evs r current q)
    (hs : MainStep r current r' next es) (hchoice : r.choice = none)
    (hbegun : ∀ p, current = none → next = some (p, .loss) → es = [.summonDestroyed .main p]) :
    PrizeLedger start (evs ++ es) r' next q := by
  cases hs with
  | aside hf quiet =>
      obtain ⟨hd, -, hr⟩ := quiet.counts (p := q)
      have howed : prizeOwed r' current q = prizeOwed r current q := by
        unfold prizeOwed
        rw [hf.choice]
      exact h.keep (congrFun hf.prizes q) ⟨hd, hr⟩ howed.le (fun _ => howed)
  | @discarded p c hmain =>
      have hown := hbegun p rfl rfl
      obtain rfl : c = p := by simpa using hown
      by_cases hqc : q = c
      · subst hqc
        have hbefore : prizeOwed r none q = 0 := by simp [prizeOwed, hchoice]
        have hafter : prizeOwed { r with main := update r.main q false } (some (q, .loss)) q = 1 := by
          simp [prizeOwed]
        have hbounded := h.bounded
        have htight := h.tight
        refine ⟨?_, ?_, fun hp => ?_⟩ <;> rw [recovered_append, counts_destroyed.2.2]
        · exact h.balance
        · rw [destroyed_append, counts_destroyed.1, if_pos rfl, hafter]
          omega
        · have := htight hp
          rw [destroyed_append, counts_destroyed.1, if_pos rfl, hafter]
          omega
      · have howed : prizeOwed { r with main := update r.main c false } (some (c, .loss)) q =
            prizeOwed r none q := by
          simp [prizeOwed, Ne.symm hqc]
        exact h.keep rfl (by simp [Ne.symm hqc]) howed.le (fun _ => howed)
  | @missed p => cases hbegun p rfl rfl
  | @recorded p =>
      have howed : prizeOwed { r with losses := update r.losses p (r.losses p + 1) }
          (some (p, .prize)) q = prizeOwed r (some (p, .loss)) q := by
        simp [prizeOwed]
      exact h.keep rfl (by simp) howed.le (fun _ => howed)
  | @prizeless p hz =>
      by_cases hqp : q = p
      · subst hqp
        exact h.keep rfl (by simp) (by simp [prizeOwed, hchoice]) (fun hp => absurd hz hp)
      · have howed : prizeOwed r (some (p, .promote)) q = prizeOwed r (some (p, .prize)) q := by
          simp [prizeOwed, Ne.symm hqp]
        exact h.keep rfl (by simp) howed.le (fun _ => howed)
  | @prizeDue p hz =>
      have howed : prizeOwed { r with choice := some (.prizePick p.opponent) }
          (some (p, .promote)) q = prizeOwed r (some (p, .prize)) q := by
        by_cases hqp : q = p
        · subst hqp
          simp [prizeOwed]
        · have hopp : p.opponent ≠ q.opponent := fun he => hqp (by
            rw [← PlayerId.opponent_opponent q, ← he, PlayerId.opponent_opponent])
          simp [prizeOwed, Ne.symm hqp, hopp, hchoice]
      exact h.keep rfl (by simp) howed.le (fun _ => howed)
  | @unpromoted p _ =>
      have howed : prizeOwed r (some (p, .consequences)) q = prizeOwed r (some (p, .promote)) q := by
        simp [prizeOwed]
      exact h.keep rfl (by simp) howed.le (fun _ => howed)
  | @promoted p slot benched =>
      refine h.keep rfl (by simp) ?_ (fun _ => ?_) <;> simp [prizeOwed]
  | @promotionDue p =>
      refine h.keep rfl (by simp) ?_ (fun _ => ?_) <;> simp [prizeOwed, hchoice]
  | @moved p => refine h.keep rfl (by simp) ?_ (fun _ => ?_) <;> simp [prizeOwed]
  | @spared p _ => refine h.keep rfl (by simp) ?_ (fun _ => ?_) <;> simp [prizeOwed]

theorem PrizeLedger.answer {q : PlayerId} (h : PrizeLedger start evs r current q)
    (hasked : Asked r current) (ha : Answer r current r' es) :
    PrizeLedger start (evs ++ es) r' current q := by
  cases ha with
  | aside hf quiet =>
      obtain ⟨hd, -, hr⟩ := quiet.counts (p := q)
      have howed : prizeOwed r' current q = prizeOwed r current q := by
        unfold prizeOwed
        rw [hf.choice]
      exact h.keep (congrFun hf.prizes q) ⟨hd, hr⟩ howed.le (fun _ => howed)
  | arrived _ quiet =>
      obtain ⟨hd, -, hr⟩ := quiet.counts (p := q)
      exact h.keep rfl ⟨hd, hr⟩ le_rfl (fun _ => rfl)
  | @promoted _ p slot benched hchoice =>
      have howed : prizeOwed { r with
          main := update r.main p true, bench := update r.bench p benched, choice := none } current q =
            prizeOwed r current q := by
        simp [prizeOwed, hchoice]
      exact h.keep rfl (by simp) howed.le (fun _ => howed)
  | @recovered _ p card hchoice hp =>
      have hcur : current = some (p, .promote) := by
        have := hasked.prize _ hchoice
        rwa [PlayerId.opponent_opponent] at this
      subst hcur
      have hafter : prizeOwed { r with
          prizes := update r.prizes p (r.prizes p - 1), choice := none } (some (p, .promote)) q = 0 := by
        simp [prizeOwed]
      by_cases hqp : q = p
      · subst hqp
        have hbefore : prizeOwed r (some (q, .promote)) q = 1 := by simp [prizeOwed, hchoice]
        have htight := h.tight hp
        have hbalance := h.balance
        have hleft : update r.prizes q (r.prizes q - 1) q = r.prizes q - 1 := update_self ..
        refine ⟨?_, ?_, fun _ => ?_⟩ <;> rw [recovered_append, counts_recovered.2.2, if_pos rfl]
        · show recovered evs q + 1 + update r.prizes q (r.prizes q - 1) q = start.prizes q
          omega
        · rw [destroyed_append, counts_recovered.1, hafter]
          omega
        · rw [destroyed_append, counts_recovered.1, hafter]
          omega
      · have hbefore : prizeOwed r (some (p, .promote)) q = 0 := by
          have hopp : p.opponent ≠ q.opponent := fun he => hqp (by
            rw [← PlayerId.opponent_opponent q, ← he, PlayerId.opponent_opponent])
          simp [prizeOwed, hchoice, hopp]
        exact h.keep (update_of_ne hqp _ _) (by simp [Ne.symm hqp]) (by rw [hafter]; omega)
          (fun _ => by rw [hafter, hbefore])

end

/-! ## Runs -/

/-- Whether a destruction in Main that begins finds the Summon of the player whose loss is recorded
next, and a loss that is recorded stays within its counter. -/
def accountsLoss (x : Entry GameState GameAction GameEvent) : Bool :=
  match x.input, nextWork x.before with
  | none, some (.discardDestroyedChain .main) =>
      match destroyedController x.before .main with
      | .ok (some c) => x.before.work[1]? = some (.recordMainLoss c)
      | .ok none => false
      | .error _ => true
  | none, some (.recordMainLoss c) => (x.before.player c).mainLosses ≠ 255
  | _, _ => true

section
variable {s t start : GameState} {es : List GameEvent} {current next : Current}

theorem DestructionStep.accounted (hstep : DestructionStep s current t next es)
    (h : accountsLoss ⟨s, none, es⟩ = true) (p : PlayerId) (hcur : current = none)
    (hnext : next = some (p, .loss)) : es = [.summonDestroyed .main p] := by
  obtain ⟨hnw, hsecond, found, hfound, rfl⟩ := hstep.begun p hcur hnext
  simp only [accountsLoss, hnw, hfound] at h
  cases found with
  | none => cases h
  | some c =>
      simp only [hsecond, decide_eq_true_eq, Option.some.injEq] at h
      cases h
      rfl

theorem DestructionStep.below (hstep : DestructionStep s current t next es)
    (h : accountsLoss ⟨s, none, es⟩ = true) (p : PlayerId) (hcur : current = some (p, .loss))
    (hnext : next = some (p, .prize)) : s.roster.losses p ≠ 255 := by
  have hnw := hstep.recording p hcur hnext
  show (s.player p).mainLosses ≠ 255
  simpa [accountsLoss, hnw] using h

/-- The ledgers of a run, and what they rest on. -/
structure Ledgers (start : Roster) (evs : List GameEvent) (r : Roster) (current : Current) :
    Prop where
  manned : Manned (Stranded start) r current
  asked : Asked r current
  losses : LossLedger start evs r current
  promotions : ∀ p, PromotionLedger start evs r current p
  prizes : ∀ p, PrizeLedger start evs r current p

theorem Opening.vacant {cards : CardSet} (h : Opening cards start) (p : PlayerId)
    (hp : start.pending = some (.promotion p)) : (start.player p).main = none := by
  rw [h.pending] at hp
  unfold Scenario.derivePending at hp
  split at hp
  · rename_i hone
    cases hp
    exact Option.isNone_iff_eq_none.mp hone
  · split at hp
    · rename_i htwo
      cases hp
      exact Option.isNone_iff_eq_none.mp htwo
    · cases hp

theorem roster_choice_promotion {p : PlayerId} :
    s.roster.choice = some (.promotion p) ↔ s.pending = some (.promotion p) := by
  simp [GameState.roster, Option.filter_eq_some_iff, PendingInput.ofDestruction]

theorem Opening.not_picking {cards : CardSet} (h : Opening cards start) (c : PlayerId) :
    start.roster.choice ≠ some (.prizePick c) := by
  simp only [GameState.roster, h.pending, Scenario.derivePending, Option.filter_eq_some_iff, ne_eq,
    not_and]
  intro hc
  split at hc
  · cases hc
  · split at hc <;> cases hc

theorem Opening.ledgers {cards : CardSet} (h : Opening cards start) :
    Ledgers start.roster [] start.roster none where
  manned := manned_start _
  asked := ⟨fun _ _ => .inl rfl, fun c hc => absurd hc (h.not_picking c)⟩
  losses p := by simp [destroyed]
  promotions := promotionLedger_start (fun p hp => by
    simp [GameState.roster, h.vacant p (roster_choice_promotion.mp hp)])
  prizes p := by
    have howed : prizeOwed start.roster none p = 0 := by
      simp [prizeOwed, h.not_picking p.opponent]
    exact ⟨by simp [recovered], by simp [recovered, howed], fun _ => by
      simp [recovered, destroyed, howed]⟩

/-- Over a run that accounts for its losses, all ledgers balance. -/
theorem Opening.run_ledgers {cards : CardSet} {tr : List (Entry GameState GameAction GameEvent)}
    (h : Opening cards start) (hr : engine.Run start tr s)
    (hg : ∀ x ∈ tr, accountsLoss x = true) (hs : s.status = .playing) :
    ∃ current, Follows current s.work ∧
      Ledgers start.roster (facts tr) s.roster current := by
  refine h.run_roster (G := fun x => accountsLoss x = true) h.ledgers ?_ ?_ hr hg hs
  · intro evs es r r' current hl ha
    exact ⟨hl.manned.answer ha, hl.asked.answer ha, hl.losses.answer ha,
      PromotionLedger.answer hl.promotions ha (fun _ _ => hl.asked.past),
      fun p => (hl.prizes p).answer hl.asked ha⟩
  · intro evs es s t current next hl hchoice hG hstep
    have hbegun := hstep.accounted hG
    have hown : ∀ p c, current = none → next = some (p, .loss) →
        es = [.summonDestroyed .main c] → c = p := by
      intro p c hcur hnext hes
      rw [hbegun p hcur hnext] at hes
      cases hes
      rfl
    exact ⟨hl.manned.step hstep.step hchoice hown, Asked.step hstep.step hchoice,
      hl.losses.step hstep.step hbegun (hstep.below hG),
      PromotionLedger.step hl.promotions hstep.step hchoice hbegun,
      fun p => (hl.prizes p).step hstep.step hchoice hbegun⟩

end

/-- **Every Main destruction is accounted once**, over runs in which each destruction that begins
finds its own Summon and no loss passes the counter's limit. -/
theorem destruction_accounted {cards : CardSet} {scenario : Scenario} {start s : GameState}
    {tr : List (Entry GameState GameAction GameEvent)}
    (hstart : fromScenario cards scenario = .ok start) (hr : engine.Run start tr s)
    (hacc : ∀ x ∈ tr, accountsLoss x = true) (hfree : FreePlay s) (p : PlayerId) :
    (s.player p).mainLosses.toNat =
        (start.player p).mainLosses.toNat + destroyed (facts tr) p ∧
      recovered (facts tr) p = min (destroyed (facts tr) p) (start.player p).prizes.length ∧
      promoted (facts tr) p =
        destroyed (facts tr) p + (if start.pending = some (.promotion p) then 1 else 0) := by
  have hopen := opening_of_fromScenario hstart
  obtain ⟨hs, hpending, -, hwork⟩ := hfree
  obtain ⟨current, hf, hl⟩ := hopen.run_ledgers hr hacc hs
  rw [hwork] at hf
  obtain rfl := hf.eq_none
  have hchoice := roster_choice_of_none hpending
  refine ⟨?_, ?_, ?_⟩
  · have hlosses := hl.losses p
    simpa [GameState.roster] using hlosses
  · have hprizes := hl.prizes p
    have howed : prizeOwed s.roster none p = 0 := by simp [prizeOwed, hchoice]
    have hbalance : recovered (facts tr) p + s.roster.prizes p = (start.player p).prizes.length :=
      hprizes.balance
    have hbounded := hprizes.bounded
    have htight := hprizes.tight
    rw [howed] at hbounded htight
    by_cases hleft : s.roster.prizes p = 0
    · omega
    · have := htight hleft
      omega
  · have hpromotions := hl.promotions p
    have hbalance := hpromotions.balance
    by_cases hmain : start.roster.main p = true
    · have hnone : start.pending ≠ some (.promotion p) := fun hp => by
        have hvacant := hopen.vacant p hp
        simp [GameState.roster, hvacant] at hmain
      have hfilled : s.roster.main p = true := by
        by_contra hempty
        rcases hl.manned.idle (Bool.eq_false_of_not_eq_true hempty) with hc | hx
        · rw [hchoice] at hc
          cases hc
        · rw [hx.1] at hmain
          cases hmain
      rw [if_pos hmain, if_pos hfilled] at hbalance
      rw [if_neg hnone]
      exact hbalance
    · have hempty := Bool.eq_false_of_not_eq_true hmain
      by_cases hp : start.pending = some (.promotion p)
      · have hfilled : s.roster.main p = true := by
          by_contra hstill
          rcases hl.manned.idle (Bool.eq_false_of_not_eq_true hstill) with hc | hx
          · rw [hchoice] at hc
            cases hc
          · exact hx.2 (roster_choice_promotion.mpr hp)
        rw [if_neg hmain, if_pos hfilled] at hbalance
        rw [if_pos hp]
        exact hbalance
      · have hstranded : Stranded start.roster p :=
          ⟨hempty, fun hc => hp (roster_choice_promotion.mp hc)⟩
        have hstill := (hpromotions.stranded hstranded).1
        rw [if_neg hmain, hstill] at hbalance
        rw [if_neg hp]
        simpa using hbalance

open Fixtures in
/-- Two hits in one Attack record two losses for the one Summon they destroy. -/
theorem destruction_not_accounted :
    ∃ scenario start s evs, fromScenario twiceStriking scenario = .ok start ∧
      Reachable start evs s ∧ FreePlay s ∧ (start.player .two).mainLosses = 0 ∧
        (s.player .two).mainLosses = 2 ∧ destroyed evs .two = 1 := by
  have hdemo : (demo twiceStriking (facing (lone (inPlay 1 1))
      (benching (lone (inPlay 2 1)) .first (inPlay 3 1))) attackPassPass).map (fun r =>
        decide (FreePlay r.2.1 ∧ (r.1.player .two).mainLosses = 0 ∧
          (r.2.1.player .two).mainLosses = 2 ∧ destroyed r.2.2 .two = 1)) = some true := by
    decide +kernel
  obtain ⟨⟨start, s, evs⟩, hr, hv⟩ := Option.map_eq_some_iff.mp hdemo
  obtain ⟨hstart, hreach⟩ := reachable_of_demo hr
  exact ⟨_, start, s, evs, hstart, hreach, of_decide_eq_true hv⟩

open Fixtures in
/-- A single lethal hit, with a Prize for the loss and a Summon to promote. -/
theorem destruction_accounted_attack :
    ∃ start tr s, engine.Run start tr s ∧ destroyed (facts tr) .two = 1 ∧
      (s.player .two).mainLosses.toNat =
        (start.player .two).mainLosses.toNat + destroyed (facts tr) .two ∧
      recovered (facts tr) .two = min 1 (start.player .two).prizes.length := by
  have hdemo : (demoTrace striking (facing (lone (inPlay 1 1))
      { benching (lone (inPlay 2 1)) .first (inPlay 3 1) with prizes := [card 4 1] })
        (attackPassPass ++ [.choosePrize .one 0])).map (fun r =>
          decide ((∀ x ∈ r.2.1, accountsLoss x = true) ∧ destroyed (facts r.2.1) .two = 1 ∧
            FreePlay r.2.2)) = some true := by
    decide +kernel
  obtain ⟨⟨start, tr, s⟩, hr, hv⟩ := Option.map_eq_some_iff.mp hdemo
  obtain ⟨hacc, hdestroyed, hfree⟩ := of_decide_eq_true hv
  obtain ⟨hstart, hrun⟩ := run_of_demoTrace hr
  obtain ⟨hlosses, hprizes, -⟩ := destruction_accounted hstart hrun hacc hfree .two
  rw [hdestroyed] at hprizes
  exact ⟨start, tr, s, hrun, hdestroyed, hlosses, hprizes⟩

end Summoners
