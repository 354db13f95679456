import Mathlib.Algebra.BigOperators.Group.List.Basic
import Mathlib.Algebra.Ring.Nat
import Summoners.Engine.Damage
import Summoners.Fixtures

/-! # The Damage pipeline

The loop of `evaluate` adds first, each addition saturating, and then reduces, each reduction
saturating at zero; so the total is one capped sum less one sum. Its lines repeat that run.
-/

namespace Summoners.Damage
set_option autoImplicit false

/-! ## What goes into a calculation -/

/-- The printed additions whose condition holds. -/
def holding (state : GameState) (intent : DamageIntent) : List DamageAddition :=
  intent.effect.additions.filter (fun addition =>
    conditionHolds state intent.context.source.controller [intent.context.target.position]
      addition.condition)

def reductionOf : Modifier → Option UInt32
  | .incomingAttackDamageReduction amount => some amount
  | .opposingRetreatCostDelta _ => none

/-- The reductions printed on the enchantments of the target's player, in play order. -/
def wards (state : GameState) (intent : DamageIntent) : List (CardInstanceId × UInt32) :=
  (state.player intent.context.target.controller).enchantments.flatMap (fun card =>
    ((((state.cards.get card.defId).toList).flatMap (fun e => e.all .modifier)).filterMap
      reductionOf).map (fun amount => (card.instanceId, amount)))

/-- The reductions that meet this calculation. -/
def met (state : GameState) (intent : DamageIntent) : List (CardInstanceId × UInt32) :=
  if isOpposingAttack intent.context then wards state intent else []

/-- A line without its running totals. -/
def DamageLine.adjustment : DamageLine → DamageAdjustment
  | .applied stage operation origin _ _ => ⟨stage, operation, origin⟩
  | .skipped stage operation origin _ _ => ⟨stage, operation, origin⟩

def additionOf (intent : DamageIntent) (addition : DamageAddition) : DamageAdjustment :=
  ⟨.addition, .add addition.amount, intent.context.source.origin⟩

def wardOf (ward : CardInstanceId × UInt32) : DamageAdjustment :=
  ⟨.persistentReduction, .reduce ward.2, .persistentCard ward.1⟩

def sumOf (amounts : List UInt32) : ℕ := (amounts.map UInt32.toNat).sum

/-- The total after one operation that is not blocked. -/
def totalAfter (total : ℕ) : DamageOperation → ℕ
  | .add value => min u32Max (total + value.toNat)
  | .reduce value => total - value.toNat
  | .clampToZero => total

/-- The lines carry the running total from the first number to the last. -/
def Runs (constraints : DamageConstraints) : ℕ → List DamageLine → ℕ → Prop
  | total, [], final => total = final
  | total, .applied stage operation _ input output :: lines, final =>
      blockedBy constraints stage = none ∧ input.toNat = total ∧
        output.toNat = totalAfter total operation ∧ Runs constraints output.toNat lines final
  | total, .skipped stage _ _ input constraint :: lines, final =>
      blockedBy constraints stage = some constraint ∧ input.toNat = total ∧
        Runs constraints total lines final

/-- One Summon took the Damage; nothing else moved, and one check is queued. -/
structure Struck (s t : GameState) (target : BattlefieldTarget) (x : SummonInstance)
    (damage : UInt32) : Prop where
  hurt : (t.player target.controller).summonAt target.position = some { x with damage }
  others : ∀ p, p ≠ target.position →
    (t.player target.controller).summonAt p = (s.player target.controller).summonAt p
  zones : { t.player target.controller with
    main := (s.player target.controller).main, bench := (s.player target.controller).bench } =
      s.player target.controller
  opponent : t.player target.controller.opponent = s.player target.controller.opponent
  queued : t.work = s.work ++ [.destructionCheck target.position]
  rest : { t with players := s.players, work := s.work } = s

/-! ## The loop -/

section
variable {constraints : DamageConstraints} {total : UInt32}

theorem applyOperation_toNat (total : UInt32) (operation : DamageOperation) :
    (applyOperation total operation).toNat = totalAfter total.toNat operation := by
  cases operation with
  | add value => exact saturatingAdd_toNat total value
  | reduce value => exact saturatingSub_toNat total value
  | clampToZero => rfl

theorem runAdjustments_blocked {adj : DamageAdjustment} {constraint : DamageConstraint}
    (h : blockedBy constraints adj.stage = some constraint) (rest : List DamageAdjustment) :
    runAdjustments constraints (adj :: rest) total =
      ((runAdjustments constraints rest total).1,
        .skipped adj.stage adj.operation adj.origin total constraint ::
          (runAdjustments constraints rest total).2) := by
  conv_lhs => unfold runAdjustments
  rw [h]

theorem runAdjustments_free {adj : DamageAdjustment} (h : blockedBy constraints adj.stage = none)
    (rest : List DamageAdjustment) :
    runAdjustments constraints (adj :: rest) total =
      ((runAdjustments constraints rest (applyOperation total adj.operation)).1,
        .applied adj.stage adj.operation adj.origin total (applyOperation total adj.operation) ::
          (runAdjustments constraints rest (applyOperation total adj.operation)).2) := by
  conv_lhs => unfold runAdjustments
  rw [h]

theorem runAdjustments_append (first second : List DamageAdjustment) :
    (runAdjustments constraints (first ++ second) total).1 =
      (runAdjustments constraints second (runAdjustments constraints first total).1).1 := by
  induction first generalizing total with
  | nil => rfl
  | cons adj first ih =>
      rw [List.cons_append]
      cases hblocked : blockedBy constraints adj.stage with
      | some constraint =>
          rw [runAdjustments_blocked hblocked, runAdjustments_blocked hblocked]
          exact ih
      | none =>
          rw [runAdjustments_free hblocked, runAdjustments_free hblocked]
          exact ih

/-- One line for each adjustment. -/
theorem runAdjustments_adjustments (adjustments : List DamageAdjustment) :
    (runAdjustments constraints adjustments total).2.map DamageLine.adjustment = adjustments := by
  induction adjustments generalizing total with
  | nil => rfl
  | cons adj adjustments ih =>
      cases hblocked : blockedBy constraints adj.stage with
      | some constraint =>
          rw [runAdjustments_blocked hblocked, List.map_cons, ih]
          rfl
      | none =>
          rw [runAdjustments_free hblocked, List.map_cons, ih]
          rfl

theorem runAdjustments_runs (adjustments : List DamageAdjustment) :
    Runs constraints total.toNat (runAdjustments constraints adjustments total).2
      (runAdjustments constraints adjustments total).1.toNat := by
  induction adjustments generalizing total with
  | nil => rfl
  | cons adj adjustments ih =>
      cases hblocked : blockedBy constraints adj.stage with
      | some constraint =>
          rw [runAdjustments_blocked hblocked]
          exact ⟨hblocked, rfl, ih⟩
      | none =>
          rw [runAdjustments_free hblocked]
          exact ⟨hblocked, rfl, applyOperation_toNat total adj.operation, ih⟩

theorem toNat_le_u32Max (n : UInt32) : n.toNat ≤ u32Max := by
  have := n.toNat_lt
  unfold u32Max
  omega

/-- Additions add up to one capped sum, or to nothing. -/
theorem runAdjustments_additions (origin : DamageOrigin) (amounts : List UInt32) :
    (runAdjustments constraints (amounts.map (fun amount => ⟨.addition, .add amount, origin⟩))
        total).1.toNat =
      if constraints.contains .unincreasable then total.toNat
      else min u32Max (total.toNat + sumOf amounts) := by
  have hfits := toNat_le_u32Max total
  cases hblocked : constraints.contains .unincreasable with
  | true =>
      have hblock : blockedBy constraints .addition = some .unincreasable := if_pos hblocked
      rw [if_pos rfl]
      induction amounts with
      | nil => rfl
      | cons amount amounts ih =>
          rw [List.map_cons, runAdjustments_blocked hblock]
          exact ih
  | false =>
      have hfree : blockedBy constraints .addition = none := if_neg (ne_true_of_eq_false hblocked)
      rw [if_neg Bool.false_ne_true]
      induction amounts generalizing total with
      | nil => simp [runAdjustments, sumOf, hfits]
      | cons amount amounts ih =>
          have hstep := ih (toNat_le_u32Max (applyOperation total (.add amount)))
          rw [applyOperation_toNat] at hstep
          have hsum : sumOf (amount :: amounts) = amount.toNat + sumOf amounts := by
            simp [sumOf]
          rw [List.map_cons, runAdjustments_free hfree]
          refine hstep.trans ?_
          rw [hsum]
          simp only [totalAfter]
          omega

/-- Reductions take one sum away, or nothing. -/
theorem runAdjustments_reductions (reductions : List (CardInstanceId × UInt32)) :
    (runAdjustments constraints (reductions.map wardOf) total).1.toNat =
      if constraints.contains .unpreventable then total.toNat
      else total.toNat - sumOf (reductions.map Prod.snd) := by
  cases hblocked : constraints.contains .unpreventable with
  | true =>
      have hblock : blockedBy constraints .persistentReduction = some .unpreventable :=
        if_pos hblocked
      rw [if_pos rfl]
      induction reductions with
      | nil => rfl
      | cons ward reductions ih =>
          rw [List.map_cons, runAdjustments_blocked hblock]
          exact ih
  | false =>
      have hfree : blockedBy constraints .persistentReduction = none :=
        if_neg (ne_true_of_eq_false hblocked)
      rw [if_neg Bool.false_ne_true]
      induction reductions generalizing total with
      | nil => simp [runAdjustments, sumOf]
      | cons ward reductions ih =>
          have hstep := @ih (applyOperation total (.reduce ward.2))
          rw [applyOperation_toNat] at hstep
          have hsum : sumOf ((ward :: reductions).map Prod.snd) =
              ward.2.toNat + sumOf (reductions.map Prod.snd) := by
            simp [sumOf]
          rw [List.map_cons, runAdjustments_free hfree]
          refine hstep.trans ?_
          rw [hsum]
          simp only [totalAfter]
          omega

end

/-! ## The adjustments collected -/

section
variable (state : GameState) (intent : DamageIntent)

theorem wardAdjustments_eq (cards : CardSet) (card : CardRef) :
    wardAdjustments cards card =
      ((((cards.get card.defId).toList).flatMap (fun e => e.all .modifier)).filterMap
        reductionOf).map (fun amount => wardOf (card.instanceId, amount)) := by
  unfold wardAdjustments
  cases cards.get card.defId with
  | none => rfl
  | some e =>
      simp only [Option.toList_some, List.flatMap_cons, List.flatMap_nil, List.append_nil,
        List.map_filterMap]
      refine List.filterMap_congr (fun m _ => ?_)
      cases m <;> rfl

/-- The additions, and then the reductions that meet the calculation. -/
theorem collectAdjustments_eq :
    collectAdjustments state intent =
      (holding state intent).map (additionOf intent) ++ (met state intent).map wardOf := by
  unfold collectAdjustments met
  split
  · have hwards : (state.player intent.context.target.controller).enchantments.flatMap
        (wardAdjustments state.cards) = (wards state intent).map wardOf := by
      unfold wards
      rw [List.map_flatMap]
      refine List.flatMap_congr (fun card _ => ?_)
      rw [wardAdjustments_eq, List.map_map]
      rfl
    rw [hwards]
    rfl
  · simp [holding, additionOf]

/-! ## Evaluation and commit -/

/-- What the additions come to. -/
def increase : ℕ :=
  if intent.effect.constraints.contains .unincreasable then 0
  else sumOf ((holding state intent).map (fun addition => addition.amount))

/-- What the reductions come to. -/
def prevented : ℕ :=
  if intent.effect.constraints.contains .unpreventable then 0
  else sumOf ((met state intent).map Prod.snd)

theorem evaluate_amount :
    (evaluate state intent).amount.toNat =
      min u32Max (intent.effect.base.toNat + increase state intent) - prevented state intent := by
  have hclamp : ∀ total : UInt32, (runAdjustments intent.effect.constraints
      [⟨.clamp, .clampToZero, intent.context.source.origin⟩] total).1 = total := fun _ => rfl
  have hadded : (runAdjustments intent.effect.constraints
      (((holding state intent).map (fun addition => addition.amount)).map (fun amount =>
        ⟨.addition, .add amount, intent.context.source.origin⟩)) intent.effect.base).1.toNat = _ :=
    runAdjustments_additions _ _
  rw [List.map_map] at hadded
  have hfits := toNat_le_u32Max intent.effect.base
  unfold evaluate
  simp only
  rw [collectAdjustments_eq, runAdjustments_append, hclamp, runAdjustments_append,
    runAdjustments_reductions]
  have hprinted : (holding state intent).map (additionOf intent) =
      (holding state intent).map ((fun amount =>
        ⟨.addition, .add amount, intent.context.source.origin⟩) ∘ fun addition =>
          addition.amount) := rfl
  rw [hprinted, hadded]
  unfold increase prevented
  split <;> split <;> omega

theorem evaluate_lines :
    (evaluate state intent).lines.map DamageLine.adjustment =
        (holding state intent).map (additionOf intent) ++ (met state intent).map wardOf ++
          [⟨.clamp, .clampToZero, intent.context.source.origin⟩] ∧
      Runs intent.effect.constraints intent.effect.base.toNat (evaluate state intent).lines
        (evaluate state intent).amount.toNat := by
  rw [← collectAdjustments_eq]
  exact ⟨runAdjustments_adjustments _, runAdjustments_runs _⟩

end

theorem commit_struck {state : GameState} {r : DamageResolution} {x : SummonInstance}
    (hx : (state.player r.context.target.controller).summonAt r.context.target.position = some x) :
    Struck state (commit state r).1 r.context.target x (saturatingAdd x.damage r.amount) ∧
      (commit state r).2 = .damageCalculationStarted r.context r.base r.constraints ::
        r.lines.map (lineEvent r.context) ++
          [.damageApplied r.context r.amount x.damage (saturatingAdd x.damage r.amount)] := by
  unfold commit
  simp only [hx]
  refine ⟨⟨?_, ?_, ?_, ?_, rfl, ?_⟩, trivial⟩
  · rw [GameState.pushBack_player, GameState.player_setPlayer_self,
      PlayerState.summonAt_setAt_self]
  · intro p hp
    rw [GameState.pushBack_player, GameState.player_setPlayer_self,
      PlayerState.summonAt_setAt_of_ne _ _ _ hp]
  · rw [GameState.pushBack_player, GameState.player_setPlayer_self]
    cases r.context.target.position <;> rfl
  · rw [GameState.pushBack_player, GameState.player_setPlayer_opponent]
  · rfl

/-- **The Damage pipeline.** The total is the capped sum of the base and the additions that hold,
less the reductions met, each sum left out where its constraint blocks it; the lines carry the
running total through them in order. The commit adds that total to one Summon, queues one check and
reports the lines; where nobody stands, it does nothing. -/
theorem damage_pipeline (state : GameState) (intent : DamageIntent) :
    (evaluate state intent).amount.toNat =
        min u32Max (intent.effect.base.toNat + increase state intent) - prevented state intent ∧
      ((evaluate state intent).lines.map DamageLine.adjustment =
          (holding state intent).map (additionOf intent) ++ (met state intent).map wardOf ++
            [⟨.clamp, .clampToZero, intent.context.source.origin⟩] ∧
        Runs intent.effect.constraints intent.effect.base.toNat (evaluate state intent).lines
          (evaluate state intent).amount.toNat) ∧
      (∀ x, (state.player intent.context.target.controller).summonAt
          intent.context.target.position = some x →
        ∃ after : UInt32,
          after.toNat = min u32Max (x.damage.toNat + (evaluate state intent).amount.toNat) ∧
          Struck state (commit state (evaluate state intent)).1 intent.context.target x after ∧
          (commit state (evaluate state intent)).2 =
            .damageCalculationStarted intent.context intent.effect.base intent.effect.constraints ::
              (evaluate state intent).lines.map (lineEvent intent.context) ++
                [.damageApplied intent.context (evaluate state intent).amount x.damage after]) ∧
      ((state.player intent.context.target.controller).summonAt
          intent.context.target.position = none →
        commit state (evaluate state intent) = (state, [])) := by
  refine ⟨evaluate_amount state intent, evaluate_lines state intent, fun x hx => ?_, fun hx => ?_⟩
  · obtain ⟨hstruck, hevents⟩ := commit_struck (r := evaluate state intent) hx
    exact ⟨_, saturatingAdd_toNat _ _, hstruck, hevents⟩
  · have hnone : (state.player (evaluate state intent).context.target.controller).summonAt
        (evaluate state intent).context.target.position = none := hx
    unfold commit
    simp only [hnone]

section
open Fixtures

/-- A Spell was played this turn, and Player Two has two enchantments in play. -/
def warded (state : GameState) : GameState :=
  { state.setPlayer .two { state.player .two with enchantments := [card 3 2, card 4 2] } with
    turn := { state.turn with spellPlayedThisTurn := ⟨true, false⟩ } }

/-- An Attack of 30, and 20 more after a Spell. -/
def boosted : DamageIntent :=
  ⟨⟨.attack .one .main (fid 1 1), ⟨.two, .main⟩⟩, ⟨30, .new, [⟨20, .spellPlayedThisTurn⟩]⟩⟩

/-- A Base Summon, and a Ward of 10. -/
def warding : CardSet :=
  ⟨[summon 1 90 .base [] [.matter],
    .mk (fid 2 0) [.tags ["enchantment"], .passive (.incomingAttackDamageReduction 10)]]⟩

/-- The addition of the Attack holds, and two Wards meet it. -/
theorem damage_pipeline_two_wards :
    ∃ start, fromScenario warding (facing (lone (inPlay 1 1)) (lone (inPlay 2 1))) = .ok start ∧
      ∃ x, ((warded start).player .two).main = some x ∧
        Struck (warded start) (commit (warded start) (evaluate (warded start) boosted)).1
          ⟨.two, .main⟩ x 30 := by
  have hdemo : (demo warding (facing (lone (inPlay 1 1)) (lone (inPlay 2 1))) []).map (fun r =>
      decide (increase (warded r.1) boosted = 20 ∧ prevented (warded r.1) boosted = 20 ∧
        ((warded r.1).player .two).main.map (fun x => x.damage) = some 0)) = some true := by
    decide +kernel
  obtain ⟨⟨start, s, evs⟩, hr, hv⟩ := Option.map_eq_some_iff.mp hdemo
  obtain ⟨hincrease, hprevented, hdamage⟩ := of_decide_eq_true hv
  obtain ⟨x, hx, hzero⟩ := Option.map_eq_some_iff.mp hdamage
  obtain ⟨hamount, -, hcommit, -⟩ := damage_pipeline (warded start) boosted
  obtain ⟨after, hafter, hstruck, -⟩ := hcommit x hx
  rw [hincrease, hprevented] at hamount
  have hthirty : after = 30 := by
    rw [← UInt32.toNat_inj, hafter, hamount, hzero]
    decide
  refine ⟨start, (reachable_of_demo hr).1, x, hx, ?_⟩
  rw [← hthirty]
  exact hstruck

end

end Summoners.Damage
