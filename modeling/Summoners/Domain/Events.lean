import Summoners.Domain.State

/-! # Actions, events and errors

`domain/actions.rs`, `domain/events.rs`, `domain/errors.rs` and the `ActionOutcome` of
`engine/apply`.
-/

namespace Summoners
set_option autoImplicit false

/-! ## Damage traces -/

inductive DamageSource
  | attack (controller : PlayerId) (position : Position) (ability : EntityId)
  | spell (controller : PlayerId) (card : CardInstanceId) (definition : EntityId)
  | skill (controller : PlayerId) (position : Position) (ability : EntityId)
  | trigger (controller : PlayerId) (position : Position) (ability : EntityId)
  deriving DecidableEq, Repr

inductive DamageOrigin
  | printedAbility (ability : EntityId)
  | persistentCard (card : CardInstanceId)
  deriving DecidableEq, Repr

namespace DamageSource

def controller : DamageSource → PlayerId
  | .attack c _ _ | .spell c _ _ | .skill c _ _ | .trigger c _ _ => c

def origin : DamageSource → DamageOrigin
  | .attack _ _ a | .skill _ _ a | .trigger _ _ a => .printedAbility a
  | .spell _ _ d => .printedAbility d

/-- `impl From<EffectSource> for DamageSource`. -/
def ofEffectSource : EffectSource → DamageSource
  | .attack c p a => .attack c p a
  | .spell c k d => .spell c k d
  | .skill c p a => .skill c p a
  | .trigger c p a => .trigger c p a

end DamageSource

structure BattlefieldTarget where
  controller : PlayerId
  position : Position
  deriving DecidableEq, Repr

structure DamageContext where
  source : DamageSource
  target : BattlefieldTarget
  deriving DecidableEq, Repr

inductive DamageStage
  | addition
  | persistentReduction
  | clamp
  | commit
  deriving DecidableEq, Repr

inductive DamageOperation
  | add (value : UInt32)
  | reduce (value : UInt32)
  | clampToZero
  deriving DecidableEq, Repr

/-! ## Events -/

inductive GameEvent
  | turnBegan (player : PlayerId)
  | summonsReadied (player : PlayerId) (positions : List Position)
  | cardDrawn (player : PlayerId) (card : CardInstanceId)
  | manaProduced (player : PlayerId) (source : ManaSource) (manaType : ManaType)
  | summonPlayed (player : PlayerId) (card : CardInstanceId) (slot : BenchSlot)
  | summonUpgraded (player : PlayerId) (card : CardInstanceId) (position : Position)
  | spellCast (player : PlayerId) (card : CardInstanceId) (targets : List Position)
  | skillActivated (player : PlayerId) (position : Position) (ability : EntityId)
  | attackDeclared (player : PlayerId) (target : Position)
  | priorityPassed (player : PlayerId)
  | stackItemResolved (item : StackItem)
  | damageCalculationStarted (context : DamageContext) (base : UInt32)
      (constraints : DamageConstraints)
  | damageAdjustmentApplied (context : DamageContext) (stage : DamageStage)
      (operation : DamageOperation) (origin : DamageOrigin) (input output : UInt32)
  | damageAdjustmentSkipped (context : DamageContext) (stage : DamageStage)
      (operation : DamageOperation) (origin : DamageOrigin) (input : UInt32)
      (constraint : DamageConstraint)
  | damageApplied (context : DamageContext) (amount before after : UInt32)
  | healed (position : Position) (amount : UInt32)
  | summonDestroyed (position : Position) (owner : PlayerId)
  | prizeRecovered (player : PlayerId) (card : CardInstanceId)
  | prizesViewed (player : PlayerId) (prizes : List CardInstanceId)
  | summonPromoted (player : PlayerId) (slot : BenchSlot)
  | summonsSwapped (player : PlayerId) (slot : BenchSlot)
  | triggerFired (controller : PlayerId) (position : Position) (event : TriggerEvent)
      (ability : EntityId)
  | coinConverted (player : PlayerId) (manaType : ManaType)
  | manaDeducted (player : PlayerId) (manaType : ManaType) (amount : UInt32)
  | gameEnded (winner : PlayerId) (reason : LossReason)
  deriving DecidableEq, Repr

/-! ## Actions -/

inductive GameAction
  | playSummon (player : PlayerId) (card : CardInstanceId) (slot : BenchSlot)
  | upgradeSummon (player : PlayerId) (card : CardInstanceId) (position : Position)
  | castSpell (player : PlayerId) (card : CardInstanceId) (targets : List Position)
      (manaHint : Option ManaType)
  | activateSkill (player : PlayerId) (position : Position) (ability : EntityId)
      (targets : List Position) (manaHint : Option ManaType)
  | retreat (player : PlayerId) (slot : BenchSlot) (manaHint : Option ManaType)
  | declareAttack (player : PlayerId) (target : Position) (manaHint : Option ManaType)
  | endTurn (player : PlayerId)
  | passPriority (player : PlayerId)
  | convertCoin (player : PlayerId) (manaType : ManaType)
  | chooseManaType (player : PlayerId) (manaType : ManaType)
  | choosePromotion (player : PlayerId) (slot : BenchSlot)
  | choosePrize (player : PlayerId) (prizeIndex : ℕ)
  | resign (player : PlayerId)
  deriving DecidableEq, Repr

def GameAction.actor : GameAction → PlayerId
  | .playSummon p _ _ | .upgradeSummon p _ _ | .castSpell p _ _ _ | .activateSkill p _ _ _ _
  | .retreat p _ _ | .declareAttack p _ _ | .endTurn p | .passPriority p | .convertCoin p _
  | .chooseManaType p _ | .choosePromotion p _ | .choosePrize p _ | .resign p => p

/-! ## Errors -/

inductive ActionError
  | notYourDecision
  | gameAlreadyOver
  | gameBroken
  | wrongPhase
  | emptyPosition
  | unknownCard
  | insufficientMana (short : ManaBank)
  | summonExhausted
  | normalAttackAlreadyUsed
  | normalRetreatAlreadyUsed
  | alreadyUpgradedThisTurn
  | playedThisTurn
  | illegalUpgradeTarget
  | invalidTarget
  | pendingInputMismatch
  | invalidManaHint
  deriving DecidableEq, Repr

inductive InvalidScenario
  | duplicateCardInstance (id : CardInstanceId)
  | unknownCardDef (id : EntityId)
  | emptyUpgradeChain (player : PlayerId) (position : Position)
  | illegalChainOrder (player : PlayerId) (position : Position)
  | noSummonInPlay (player : PlayerId)
  deriving DecidableEq, Repr

structure ActionOutcome where
  state : GameState
  events : List GameEvent

end Summoners
