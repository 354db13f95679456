import Summoners.Domain.Words
import Summoners.Domain.Events

/-! # Evaluating and committing Damage

`engine/damage.rs`. `evaluate` reads the state and returns a `DamageResolution`; `commit` writes it
to one Summon, queues one destruction check and flattens the trace into events.
-/

namespace Summoners.Damage
set_option autoImplicit false

structure DamageIntent where
  context : DamageContext
  effect : DamageEffect
  deriving DecidableEq, Repr

structure DamageAdjustment where
  stage : DamageStage
  operation : DamageOperation
  origin : DamageOrigin
  deriving DecidableEq, Repr

inductive DamageLine
  | applied (stage : DamageStage) (operation : DamageOperation) (origin : DamageOrigin)
      (input output : UInt32)
  | skipped (stage : DamageStage) (operation : DamageOperation) (origin : DamageOrigin)
      (input : UInt32) (constraint : DamageConstraint)
  deriving DecidableEq, Repr

structure DamageResolution where
  context : DamageContext
  base : UInt32
  constraints : DamageConstraints
  amount : UInt32
  lines : List DamageLine
  deriving DecidableEq, Repr

def conditionHolds (state : GameState) (controller : PlayerId) (targets : List Position) :
    EffectCondition → Bool
  | .spellPlayedThisTurn => state.turn.spellPlayedThisTurn.get controller
  | .defenderEnteredMainThisTurn =>
      match targets with
      | [] => false
      | position :: _ =>
          match (state.player controller.opponent).summonAt position with
          | none => false
          | some summon => summon.turn.mainEntry.isSome

/-- The Ward reductions one enchantment in play adds. -/
def wardAdjustments (cards : CardSet) (card : CardRef) : List DamageAdjustment :=
  match cards.get card.defId with
  | none => []
  | some entity =>
      (entity.all .modifier).filterMap (fun
        | .incomingAttackDamageReduction amount =>
            some ⟨.persistentReduction, .reduce amount, .persistentCard card.instanceId⟩
        | .opposingRetreatCostDelta _ => none)

def isOpposingAttack (context : DamageContext) : Bool :=
  match context.source with
  | .attack controller _ _ => controller.opponent = context.target.controller
  | _ => false

def collectAdjustments (state : GameState) (intent : DamageIntent) : List DamageAdjustment :=
  let additions := intent.effect.additions.filter (fun addition =>
    conditionHolds state intent.context.source.controller [intent.context.target.position]
      addition.condition)
  let printed := additions.map (fun addition =>
    ⟨.addition, .add addition.amount, intent.context.source.origin⟩)
  if isOpposingAttack intent.context then
    printed ++ (state.player intent.context.target.controller).enchantments.flatMap
      (wardAdjustments state.cards)
  else printed

/-- The constraint, if any, that blocks an adjustment of this stage. -/
def blockedBy (constraints : DamageConstraints) : DamageStage → Option DamageConstraint
  | .addition => if constraints.contains .unincreasable then some .unincreasable else none
  | .persistentReduction =>
      if constraints.contains .unpreventable then some .unpreventable else none
  | .clamp | .commit => none

def applyOperation (amount : UInt32) : DamageOperation → UInt32
  | .add value => saturatingAdd amount value
  | .reduce value => saturatingSub amount value
  | .clampToZero => amount

/-- The loop of `evaluate`: the final amount and the lines it writes. -/
def runAdjustments (constraints : DamageConstraints) :
    List DamageAdjustment → UInt32 → UInt32 × List DamageLine
  | [], amount => (amount, [])
  | adj :: rest, amount =>
      match blockedBy constraints adj.stage with
      | some constraint =>
          let r := runAdjustments constraints rest amount
          (r.1, .skipped adj.stage adj.operation adj.origin amount constraint :: r.2)
      | none =>
          let output := applyOperation amount adj.operation
          let r := runAdjustments constraints rest output
          (r.1, .applied adj.stage adj.operation adj.origin amount output :: r.2)

def evaluate (state : GameState) (intent : DamageIntent) : DamageResolution :=
  let adjustments := collectAdjustments state intent ++
    [⟨.clamp, .clampToZero, intent.context.source.origin⟩]
  let r := runAdjustments intent.effect.constraints adjustments intent.effect.base
  { context := intent.context
    base := intent.effect.base
    constraints := intent.effect.constraints
    amount := r.1
    lines := r.2 }

def lineEvent (context : DamageContext) : DamageLine → GameEvent
  | .applied stage operation origin input output =>
      .damageAdjustmentApplied context stage operation origin input output
  | .skipped stage operation origin input constraint =>
      .damageAdjustmentSkipped context stage operation origin input constraint

def commit (state : GameState) (resolution : DamageResolution) : GameState × List GameEvent :=
  let target := resolution.context.target
  let ps := state.player target.controller
  match ps.summonAt target.position with
  | none => (state, [])
  | some summon =>
      let before := summon.damage
      let after := saturatingAdd before resolution.amount
      let next := state.setPlayer target.controller
        (ps.setAt target.position (some { summon with damage := after }))
      (next.pushBack [.destructionCheck target.position],
        .damageCalculationStarted resolution.context resolution.base resolution.constraints ::
          resolution.lines.map (lineEvent resolution.context) ++
          [.damageApplied resolution.context resolution.amount before after])

end Summoners.Damage
