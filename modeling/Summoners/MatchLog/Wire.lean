import Summoners.Domain.Events
import Summoners.Domain.EntityText

/-! # The wire types of a match log

`wire.rs`, `wire/action.rs`, `wire/action_error.rs`, `wire/event.rs` and the projection of
`state.rs`, as the types the JSON text is decoded into. An array of three Bench slots is three fields; an
integer of 64 bits is a natural number.
-/

namespace Summoners
set_option autoImplicit false

structure EntityIdV1 where
  text : String
  deriving DecidableEq, Repr

inductive PlayerIdV1
  | one
  | two
  deriving DecidableEq, Repr

inductive BenchSlotV1
  | first
  | second
  | third
  deriving DecidableEq, Repr

inductive PositionV1
  | main
  | bench (slot : BenchSlotV1)
  deriving DecidableEq, Repr

inductive ManaTypeV1
  | matter
  | mind
  | spirit
  deriving DecidableEq, Repr

structure CardRefV1 where
  instanceId : UInt32
  definition : EntityIdV1
  deriving DecidableEq, Repr

/-! ## Summons and players -/

structure UpgradeChainV1 where
  layers : List CardRefV1
  deriving DecidableEq, Repr

inductive DurationMarkerV1
  | cannotBeMovedByOpponent
  deriving DecidableEq, Repr

inductive UpgradeActivityV1
  | available
  | playedThisTurn
  | upgradedThisTurn
  deriving DecidableEq, Repr

structure SummonTurnRecordV1 where
  upgrade : UpgradeActivityV1
  enteredMain : Bool
  deriving DecidableEq, Repr

inductive ReadinessV1
  | ready
  | exhausted
  deriving DecidableEq, Repr

structure SummonInstanceV1 where
  chain : UpgradeChainV1
  damage : UInt32
  readiness : ReadinessV1
  owner : PlayerIdV1
  controller : PlayerIdV1
  durationMarkers : List DurationMarkerV1
  turn : SummonTurnRecordV1
  deriving DecidableEq, Repr

structure ManaBankV1 where
  matter : UInt32
  mind : UInt32
  spirit : UInt32
  deriving DecidableEq, Repr

/-- `[Option<SummonInstanceV1>; 3]`. -/
structure BenchV1 where
  first : Option SummonInstanceV1
  second : Option SummonInstanceV1
  third : Option SummonInstanceV1
  deriving DecidableEq, Repr

structure PlayerStateV1 where
  main : Option SummonInstanceV1
  bench : BenchV1
  deck : List CardRefV1
  hand : List CardRefV1
  prizes : List CardRefV1
  discard : List CardRefV1
  mana : ManaBankV1
  mainLosses : UInt8
  enchantments : List CardRefV1
  deriving DecidableEq, Repr

structure PlayersV1 where
  one : PlayerStateV1
  two : PlayerStateV1
  deriving DecidableEq, Repr

/-! ## Turn, decisions and outcome -/

structure PerPlayerBoolV1 where
  one : Bool
  two : Bool
  deriving DecidableEq, Repr

structure StackWindowV1 where
  holder : PlayerIdV1
  priorPass : Bool
  deriving DecidableEq, Repr

inductive PhaseV1
  | upkeep
  | main
  | combat
  deriving DecidableEq, Repr

structure TurnStateV1 where
  activePlayer : PlayerIdV1
  phase : PhaseV1
  window : Option StackWindowV1
  normalAttackUsed : Bool
  normalRetreatUsed : Bool
  spellPlayedThisTurn : PerPlayerBoolV1
  deriving DecidableEq, Repr

inductive ManaSourceV1
  | player
  | summon (position : PositionV1)
  deriving DecidableEq, Repr

inductive PendingInputV1
  | manaProduction (player : PlayerIdV1) (source : ManaSourceV1)
  | promotion (player : PlayerIdV1)
  | prizePick (chooser : PlayerIdV1)
  deriving DecidableEq, Repr

inductive LossReasonV1
  | thirdMainLoss
  | noPromotionAvailable
  | emptyDeckDraw
  | resignation
  deriving DecidableEq, Repr

structure GameOutcomeV1 where
  winner : PlayerIdV1
  reason : LossReasonV1
  deriving DecidableEq, Repr

inductive ComponentKindV1
  | name
  | accountingId
  | life
  | retreatCost
  | form
  | produces
  | tags
  | cost
  | skill
  | attack
  | trigger
  | effect
  | passive
  | timing
  | event
  | respondable
  | persistent
  deriving DecidableEq, Repr

structure BreakageV1 where
  rule : String
  entity : EntityIdV1
  expected : ComponentKindV1
  deriving DecidableEq, Repr

inductive GameStatusV1
  | playing
  | ended (outcome : GameOutcomeV1)
  | broken (breakage : BreakageV1)
  deriving DecidableEq, Repr

/-! ## Effects, the Stack and the work queue -/

inductive TriggerEventV1
  | yourUpkeep
  | entersMain
  | entersBench
  | leavesMain
  | leavesBench
  | anySummonDestroyed
  deriving DecidableEq, Repr

inductive EffectConditionV1
  | defenderEnteredMainThisTurn
  | spellPlayedThisTurn
  deriving DecidableEq, Repr

inductive EffectTargetV1
  | selected
  | source
  deriving DecidableEq, Repr

structure DamageConstraintsV1 where
  unincreasable : Bool
  unpreventable : Bool
  deriving DecidableEq, Repr

structure DamageAdditionV1 where
  amount : UInt32
  condition : EffectConditionV1
  deriving DecidableEq, Repr

structure DamageEffectV1 where
  base : UInt32
  constraints : DamageConstraintsV1
  additions : List DamageAdditionV1
  deriving DecidableEq, Repr

inductive ResponseBlockV1
  | attackSpells
  deriving DecidableEq, Repr

inductive EffectLeafV1
  | dealDamage (damage : DamageEffectV1)
  | heal (amount : UInt32) (target : EffectTargetV1)
  | moveSummon
  | swapPositions
  | blockResponses (condition : EffectConditionV1) (block : ResponseBlockV1)
  | returnSpellFromDiscard
  | lookAtPrizes
  | drawCards (amount : UInt32)
  | returnSpellToDeckTop
  | produceMana (target : EffectTargetV1)
  | cannotBeMovedByOpponent (target : EffectTargetV1)
  | readySummon
  | swapOpposingPositions
  deriving DecidableEq, Repr

inductive StackItemV1
  | attack (attacker : PlayerIdV1) (target : PositionV1)
  | spell (caster : PlayerIdV1) (card : CardRefV1) (targets : List PositionV1)
  | trigger (controller : PlayerIdV1) (source : PositionV1) (ability : EntityIdV1)
      (event : TriggerEventV1) (targets : List PositionV1) (effects : List EffectLeafV1)
  deriving DecidableEq, Repr

inductive MovementStepV1
  | leavingMain
  | enteringBench
  | leavingBench
  | enteringMain
  deriving DecidableEq, Repr

inductive WorkItemV1
  | destructionCheck (position : PositionV1)
  | discardDestroyedChain (position : PositionV1)
  | recordMainLoss (player : PlayerIdV1)
  | recoverPrize (player : PlayerIdV1)
  | promoteBenchSummon (player : PlayerIdV1)
  | resolveMovementConsequences (player : PlayerIdV1)
  | movementTrigger (step : MovementStepV1) (player : PlayerIdV1) (position : PositionV1)
  | fireTrigger (player : PlayerIdV1) (position : PositionV1) (event : TriggerEventV1)
      (ability : EntityIdV1)
  | lossCheck (player : PlayerIdV1)
  | readyAll
  | drawCard
  | produceMana (player : PlayerIdV1) (source : ManaSourceV1)
  | beginMainPhase
  deriving DecidableEq, Repr

structure StateProjectionV1 where
  players : PlayersV1
  coin : Bool
  turn : TurnStateV1
  stack : List StackItemV1
  stackSegmentBases : List ℕ
  work : List WorkItemV1
  pending : Option PendingInputV1
  status : GameStatusV1
  deriving DecidableEq, Repr

/-! ## Actions and errors -/

inductive ActionV1
  | playSummon (player : PlayerIdV1) (card : UInt32) (slot : BenchSlotV1)
  | upgradeSummon (player : PlayerIdV1) (card : UInt32) (position : PositionV1)
  | castSpell (player : PlayerIdV1) (card : UInt32) (targets : List PositionV1)
      (manaHint : Option ManaTypeV1)
  | activateSkill (player : PlayerIdV1) (position : PositionV1) (ability : EntityIdV1)
      (targets : List PositionV1) (manaHint : Option ManaTypeV1)
  | retreat (player : PlayerIdV1) (slot : BenchSlotV1) (manaHint : Option ManaTypeV1)
  | declareAttack (player : PlayerIdV1) (target : PositionV1) (manaHint : Option ManaTypeV1)
  | endTurn (player : PlayerIdV1)
  | passPriority (player : PlayerIdV1)
  | convertCoin (player : PlayerIdV1) (manaType : ManaTypeV1)
  | chooseManaType (player : PlayerIdV1) (manaType : ManaTypeV1)
  | choosePromotion (player : PlayerIdV1) (slot : BenchSlotV1)
  | choosePrize (player : PlayerIdV1) (prizeIndex : ℕ)
  | resign (player : PlayerIdV1)
  deriving DecidableEq, Repr

inductive ErrorV1
  | notYourDecision
  | gameAlreadyOver
  | gameBroken
  | wrongPhase
  | emptyPosition
  | unknownCard
  | insufficientMana (short : ManaBankV1)
  | summonExhausted
  | normalAttackAlreadyUsed
  | normalRetreatAlreadyUsed
  | alreadyUpgradedThisTurn
  | playedThisTurn
  | illegalUpgradeTarget
  | invalidTarget
  | pendingInputMismatch
  | invalidManaHint
  deriving DecidableEq, Repr

/-! ## Events -/

inductive DamageConstraintV1
  | unincreasable
  | unpreventable
  deriving DecidableEq, Repr

inductive DamageStageV1
  | addition
  | persistentReduction
  | clamp
  | commit
  deriving DecidableEq, Repr

inductive DamageOperationV1
  | add (amount : UInt32)
  | reduce (amount : UInt32)
  | clampToZero
  deriving DecidableEq, Repr

inductive DamageSourceV1
  | attack (controller : PlayerIdV1) (position : PositionV1) (ability : EntityIdV1)
  | spell (controller : PlayerIdV1) (card : UInt32) (definition : EntityIdV1)
  | skill (controller : PlayerIdV1) (position : PositionV1) (ability : EntityIdV1)
  | trigger (controller : PlayerIdV1) (position : PositionV1) (ability : EntityIdV1)
  deriving DecidableEq, Repr

inductive DamageOriginV1
  | printedAbility (ability : EntityIdV1)
  | persistentCard (card : UInt32)
  deriving DecidableEq, Repr

structure BattlefieldTargetV1 where
  controller : PlayerIdV1
  position : PositionV1
  deriving DecidableEq, Repr

structure DamageContextV1 where
  source : DamageSourceV1
  target : BattlefieldTargetV1
  deriving DecidableEq, Repr

inductive EventV1
  | turnBegan (player : PlayerIdV1)
  | summonsReadied (player : PlayerIdV1) (positions : List PositionV1)
  | cardDrawn (player : PlayerIdV1) (card : UInt32)
  | manaProduced (player : PlayerIdV1) (source : ManaSourceV1) (manaType : ManaTypeV1)
  | summonPlayed (player : PlayerIdV1) (card : UInt32) (slot : BenchSlotV1)
  | summonUpgraded (player : PlayerIdV1) (card : UInt32) (position : PositionV1)
  | spellCast (player : PlayerIdV1) (card : UInt32) (targets : List PositionV1)
  | skillActivated (player : PlayerIdV1) (position : PositionV1) (ability : EntityIdV1)
  | attackDeclared (player : PlayerIdV1) (target : PositionV1)
  | priorityPassed (player : PlayerIdV1)
  | stackItemResolved (item : StackItemV1)
  | damageCalculationStarted (context : DamageContextV1) (base : UInt32)
      (constraints : DamageConstraintsV1)
  | damageAdjustmentApplied (context : DamageContextV1) (stage : DamageStageV1)
      (operation : DamageOperationV1) (origin : DamageOriginV1) (input output : UInt32)
  | damageAdjustmentSkipped (context : DamageContextV1) (stage : DamageStageV1)
      (operation : DamageOperationV1) (origin : DamageOriginV1) (input : UInt32)
      (constraint : DamageConstraintV1)
  | damageApplied (context : DamageContextV1) (amount before after : UInt32)
  | healed (position : PositionV1) (amount : UInt32)
  | summonDestroyed (position : PositionV1) (owner : PlayerIdV1)
  | prizeRecovered (player : PlayerIdV1) (card : UInt32)
  | prizesViewed (player : PlayerIdV1) (prizes : List UInt32)
  | summonPromoted (player : PlayerIdV1) (from_ : BenchSlotV1)
  | summonsSwapped (player : PlayerIdV1) (main : BenchSlotV1)
  | triggerFired (controller : PlayerIdV1) (position : PositionV1) (event : TriggerEventV1)
      (ability : EntityIdV1)
  | coinConverted (player : PlayerIdV1) (manaType : ManaTypeV1)
  | manaDeducted (player : PlayerIdV1) (manaType : ManaTypeV1) (amount : UInt32)
  | gameEnded (winner : PlayerIdV1) (reason : LossReasonV1)
  deriving DecidableEq, Repr

/-! ## Conversion errors -/

/-- `StateRebuildError`; a segment base always fits a 64-bit `usize`. -/
inductive StateRebuildError
  | invalidEntityId (value : String)
  | emptyUpgradeChain
  | unsupportedBreakageRule (rule : String)
  deriving DecidableEq, Repr

/-- `WireConversionError`; a Prize index always fits a 64-bit `usize`. -/
inductive WireConversionError
  | invalidEntityId (value : String)
  | stateRebuild (error : StateRebuildError)
  deriving DecidableEq, Repr

end Summoners
