import Mathlib.Logic.Equiv.Defs
import Mathlib.Data.Option.Basic
import Summoners.MatchLog.Wire

/-! # Conversions that cannot fail

The pairs of `From` implementations between the vocabulary of the rules and of the wire, each one a
bijection: `ofCore` is `V1::from` and `ofCore.symm` is the `From` of the opposite direction.
-/

namespace Summoners
set_option autoImplicit false

/-! ## Enumerations -/

def PlayerIdV1.ofCore : PlayerId ≃ PlayerIdV1 where
  toFun
    | .one => .one | .two => .two
  invFun
    | .one => .one | .two => .two
  left_inv v := by cases v <;> rfl
  right_inv w := by cases w <;> rfl

def BenchSlotV1.ofCore : BenchSlot ≃ BenchSlotV1 where
  toFun
    | .first => .first | .second => .second | .third => .third
  invFun
    | .first => .first | .second => .second | .third => .third
  left_inv v := by cases v <;> rfl
  right_inv w := by cases w <;> rfl

def DurationMarkerV1.ofCore : DurationMarker ≃ DurationMarkerV1 where
  toFun
    | .cannotBeMovedByOpponent => .cannotBeMovedByOpponent
  invFun
    | .cannotBeMovedByOpponent => .cannotBeMovedByOpponent
  left_inv v := by
    cases v
    rfl
  right_inv w := by
    cases w
    rfl

def UpgradeActivityV1.ofCore : UpgradeActivity ≃ UpgradeActivityV1 where
  toFun
    | .available => .available | .playedThisTurn => .playedThisTurn
    | .upgradedThisTurn => .upgradedThisTurn
  invFun
    | .available => .available | .playedThisTurn => .playedThisTurn
    | .upgradedThisTurn => .upgradedThisTurn
  left_inv v := by cases v <;> rfl
  right_inv w := by cases w <;> rfl

def ReadinessV1.ofCore : Readiness ≃ ReadinessV1 where
  toFun
    | .ready => .ready | .exhausted => .exhausted
  invFun
    | .ready => .ready | .exhausted => .exhausted
  left_inv v := by cases v <;> rfl
  right_inv w := by cases w <;> rfl

def PhaseV1.ofCore : Phase ≃ PhaseV1 where
  toFun
    | .upkeep => .upkeep | .main => .main | .combat => .combat
  invFun
    | .upkeep => .upkeep | .main => .main | .combat => .combat
  left_inv v := by cases v <;> rfl
  right_inv w := by cases w <;> rfl

def LossReasonV1.ofCore : LossReason ≃ LossReasonV1 where
  toFun
    | .thirdMainLoss => .thirdMainLoss | .noPromotionAvailable => .noPromotionAvailable
    | .emptyDeckDraw => .emptyDeckDraw | .resignation => .resignation
  invFun
    | .thirdMainLoss => .thirdMainLoss | .noPromotionAvailable => .noPromotionAvailable
    | .emptyDeckDraw => .emptyDeckDraw | .resignation => .resignation
  left_inv v := by cases v <;> rfl
  right_inv w := by cases w <;> rfl

def ComponentKindV1.ofCore : ComponentKind ≃ ComponentKindV1 where
  toFun
    | .name => .name | .accountingId => .accountingId | .life => .life
    | .retreatCost => .retreatCost | .form => .form | .produces => .produces | .tags => .tags
    | .cost => .cost | .skill => .skill | .attack => .attack | .trigger => .trigger
    | .effect => .effect | .passive => .passive | .timing => .timing | .event => .event
    | .respondable => .respondable | .persistent => .persistent
  invFun
    | .name => .name | .accountingId => .accountingId | .life => .life
    | .retreatCost => .retreatCost | .form => .form | .produces => .produces | .tags => .tags
    | .cost => .cost | .skill => .skill | .attack => .attack | .trigger => .trigger
    | .effect => .effect | .passive => .passive | .timing => .timing | .event => .event
    | .respondable => .respondable | .persistent => .persistent
  left_inv v := by cases v <;> rfl
  right_inv w := by cases w <;> rfl

def TriggerEventV1.ofCore : TriggerEvent ≃ TriggerEventV1 where
  toFun
    | .yourUpkeep => .yourUpkeep | .entersMain => .entersMain | .entersBench => .entersBench
    | .leavesMain => .leavesMain | .leavesBench => .leavesBench
    | .anySummonDestroyed => .anySummonDestroyed
  invFun
    | .yourUpkeep => .yourUpkeep | .entersMain => .entersMain | .entersBench => .entersBench
    | .leavesMain => .leavesMain | .leavesBench => .leavesBench
    | .anySummonDestroyed => .anySummonDestroyed
  left_inv v := by cases v <;> rfl
  right_inv w := by cases w <;> rfl

def EffectConditionV1.ofCore : EffectCondition ≃ EffectConditionV1 where
  toFun
    | .defenderEnteredMainThisTurn => .defenderEnteredMainThisTurn
    | .spellPlayedThisTurn => .spellPlayedThisTurn
  invFun
    | .defenderEnteredMainThisTurn => .defenderEnteredMainThisTurn
    | .spellPlayedThisTurn => .spellPlayedThisTurn
  left_inv v := by cases v <;> rfl
  right_inv w := by cases w <;> rfl

def EffectTargetV1.ofCore : EffectTarget ≃ EffectTargetV1 where
  toFun
    | .selected => .selected | .source => .source
  invFun
    | .selected => .selected | .source => .source
  left_inv v := by cases v <;> rfl
  right_inv w := by cases w <;> rfl

def ResponseBlockV1.ofCore : ResponseBlock ≃ ResponseBlockV1 where
  toFun
    | .attackSpells => .attackSpells
  invFun
    | .attackSpells => .attackSpells
  left_inv v := by
    cases v
    rfl
  right_inv w := by
    cases w
    rfl

def MovementStepV1.ofCore : MovementStep ≃ MovementStepV1 where
  toFun
    | .leavingMain => .leavingMain | .enteringBench => .enteringBench
    | .leavingBench => .leavingBench | .enteringMain => .enteringMain
  invFun
    | .leavingMain => .leavingMain | .enteringBench => .enteringBench
    | .leavingBench => .leavingBench | .enteringMain => .enteringMain
  left_inv v := by cases v <;> rfl
  right_inv w := by cases w <;> rfl

def ManaTypeV1.ofCore : ManaType ≃ ManaTypeV1 where
  toFun
    | .matter => .matter | .mind => .mind | .spirit => .spirit
  invFun
    | .matter => .matter | .mind => .mind | .spirit => .spirit
  left_inv v := by cases v <;> rfl
  right_inv w := by cases w <;> rfl

def DamageConstraintV1.ofCore : DamageConstraint ≃ DamageConstraintV1 where
  toFun
    | .unincreasable => .unincreasable | .unpreventable => .unpreventable
  invFun
    | .unincreasable => .unincreasable | .unpreventable => .unpreventable
  left_inv v := by cases v <;> rfl
  right_inv w := by cases w <;> rfl

def DamageStageV1.ofCore : DamageStage ≃ DamageStageV1 where
  toFun
    | .addition => .addition | .persistentReduction => .persistentReduction | .clamp => .clamp
    | .commit => .commit
  invFun
    | .addition => .addition | .persistentReduction => .persistentReduction | .clamp => .clamp
    | .commit => .commit
  left_inv v := by cases v <;> rfl
  right_inv w := by cases w <;> rfl

/-! ## Positions, cards and Mana -/

/-- `card.0` and `CardInstanceId(card)`. -/
def CardInstanceId.number : CardInstanceId ≃ UInt32 where
  toFun v := v.id
  invFun w := ⟨w⟩
  left_inv _ := rfl
  right_inv _ := rfl

def PositionV1.ofCore : Position ≃ PositionV1 where
  toFun
    | .main => .main
    | .bench slot => .bench (BenchSlotV1.ofCore slot)
  invFun
    | .main => .main
    | .bench slot => .bench (BenchSlotV1.ofCore.symm slot)
  left_inv v := by cases v <;> simp
  right_inv w := by cases w <;> simp

def ManaBankV1.ofCore : ManaBank ≃ ManaBankV1 where
  toFun v := ⟨v.matter, v.mind, v.spirit⟩
  invFun w := ⟨w.matter, w.mind, w.spirit⟩
  left_inv _ := rfl
  right_inv _ := rfl

def ManaSourceV1.ofCore : ManaSource ≃ ManaSourceV1 where
  toFun
    | .player => .player
    | .summon position => .summon (PositionV1.ofCore position)
  invFun
    | .player => .player
    | .summon position => .summon (PositionV1.ofCore.symm position)
  left_inv v := by cases v <;> simp
  right_inv w := by cases w <;> simp

/-! ## Turn, decisions and outcome -/

def SummonTurnRecordV1.ofCore : SummonTurnRecord ≃ SummonTurnRecordV1 where
  toFun v := ⟨UpgradeActivityV1.ofCore v.upgrade, v.mainEntry.isSome⟩
  invFun w :=
    ⟨UpgradeActivityV1.ofCore.symm w.upgrade, if w.enteredMain then some .mk else none⟩
  left_inv v := by
    obtain ⟨upgrade, _ | ⟨⟨⟩⟩⟩ := v <;> simp
  right_inv w := by
    obtain ⟨upgrade, _ | _⟩ := w <;> simp

/-- `coin.is_some()` and `coin.then_some(Coin)`. -/
def coinHeld : Option Coin ≃ Bool where
  toFun v := v.isSome
  invFun w := if w then some .mk else none
  left_inv v := by obtain _ | ⟨⟨⟩⟩ := v <;> rfl
  right_inv w := by cases w <;> rfl

def StackWindowV1.ofCore : StackWindow ≃ StackWindowV1 where
  toFun v := ⟨PlayerIdV1.ofCore v.holder, v.priorPass⟩
  invFun w := ⟨PlayerIdV1.ofCore.symm w.holder, w.priorPass⟩
  left_inv v := by simp
  right_inv w := by simp

def TurnStateV1.ofCore : TurnState ≃ TurnStateV1 where
  toFun v :=
    { activePlayer := PlayerIdV1.ofCore v.activePlayer
      phase := PhaseV1.ofCore v.phase
      window := v.window.map StackWindowV1.ofCore
      normalAttackUsed := v.normalAttackUsed
      normalRetreatUsed := v.normalRetreatUsed
      spellPlayedThisTurn := ⟨v.spellPlayedThisTurn.one, v.spellPlayedThisTurn.two⟩ }
  invFun w :=
    { activePlayer := PlayerIdV1.ofCore.symm w.activePlayer
      phase := PhaseV1.ofCore.symm w.phase
      window := w.window.map StackWindowV1.ofCore.symm
      normalAttackUsed := w.normalAttackUsed
      normalRetreatUsed := w.normalRetreatUsed
      spellPlayedThisTurn := ⟨w.spellPlayedThisTurn.one, w.spellPlayedThisTurn.two⟩ }
  left_inv v := by simp
  right_inv w := by simp

def PendingInputV1.ofCore : PendingInput ≃ PendingInputV1 where
  toFun
    | .manaProduction player source =>
        .manaProduction (PlayerIdV1.ofCore player) (ManaSourceV1.ofCore source)
    | .promotion player => .promotion (PlayerIdV1.ofCore player)
    | .prizePick chooser => .prizePick (PlayerIdV1.ofCore chooser)
  invFun
    | .manaProduction player source =>
        .manaProduction (PlayerIdV1.ofCore.symm player) (ManaSourceV1.ofCore.symm source)
    | .promotion player => .promotion (PlayerIdV1.ofCore.symm player)
    | .prizePick chooser => .prizePick (PlayerIdV1.ofCore.symm chooser)
  left_inv v := by cases v <;> simp
  right_inv w := by cases w <;> simp

def GameOutcomeV1.ofCore : GameOutcome ≃ GameOutcomeV1 where
  toFun v := ⟨PlayerIdV1.ofCore v.winner, LossReasonV1.ofCore v.reason⟩
  invFun w := ⟨PlayerIdV1.ofCore.symm w.winner, LossReasonV1.ofCore.symm w.reason⟩
  left_inv v := by simp
  right_inv w := by simp

/-! ## Effects -/

/-- `constraints_v1` and `constraints_core`. -/
def DamageConstraintsV1.ofCore : DamageConstraints ≃ DamageConstraintsV1 where
  toFun v := ⟨v.contains .unincreasable, v.contains .unpreventable⟩
  invFun w :=
    let constraints := DamageConstraints.new
    let constraints :=
      if w.unincreasable then constraints.insert .unincreasable else constraints
    if w.unpreventable then constraints.insert .unpreventable else constraints
  left_inv v := by
    -- a set of constraints is what it contains
    apply DamageConstraints.ext_contains
    intro k
    cases hi : v.contains .unincreasable <;> cases hp : v.contains .unpreventable <;>
      cases k <;> simp [hi, hp, DamageConstraints.contains_insert] <;> rfl
  right_inv w := by
    obtain ⟨_ | _, _ | _⟩ := w <;> rfl

def DamageAdditionV1.ofCore : DamageAddition ≃ DamageAdditionV1 where
  toFun v := ⟨v.amount, EffectConditionV1.ofCore v.condition⟩
  invFun w := ⟨w.amount, EffectConditionV1.ofCore.symm w.condition⟩
  left_inv v := by simp
  right_inv w := by simp

def DamageEffectV1.ofCore : DamageEffect ≃ DamageEffectV1 where
  toFun v :=
    ⟨v.base, DamageConstraintsV1.ofCore v.constraints, v.additions.map DamageAdditionV1.ofCore⟩
  invFun w :=
    ⟨w.base, DamageConstraintsV1.ofCore.symm w.constraints,
      w.additions.map DamageAdditionV1.ofCore.symm⟩
  left_inv v := by simp
  right_inv w := by simp

def EffectLeafV1.ofCore : EffectLeaf ≃ EffectLeafV1 where
  toFun
    | .dealDamage damage => .dealDamage (DamageEffectV1.ofCore damage)
    | .heal amount target => .heal amount (EffectTargetV1.ofCore target)
    | .moveSummon => .moveSummon
    | .swapPositions => .swapPositions
    | .blockResponses condition block =>
        .blockResponses (EffectConditionV1.ofCore condition) (ResponseBlockV1.ofCore block)
    | .returnSpellFromDiscard => .returnSpellFromDiscard
    | .lookAtPrizes => .lookAtPrizes
    | .drawCards amount => .drawCards amount
    | .returnSpellToDeckTop => .returnSpellToDeckTop
    | .produceMana target => .produceMana (EffectTargetV1.ofCore target)
    | .cannotBeMovedByOpponent target => .cannotBeMovedByOpponent (EffectTargetV1.ofCore target)
    | .readySummon => .readySummon
    | .swapOpposingPositions => .swapOpposingPositions
  invFun
    | .dealDamage damage => .dealDamage (DamageEffectV1.ofCore.symm damage)
    | .heal amount target => .heal amount (EffectTargetV1.ofCore.symm target)
    | .moveSummon => .moveSummon
    | .swapPositions => .swapPositions
    | .blockResponses condition block =>
        .blockResponses (EffectConditionV1.ofCore.symm condition)
          (ResponseBlockV1.ofCore.symm block)
    | .returnSpellFromDiscard => .returnSpellFromDiscard
    | .lookAtPrizes => .lookAtPrizes
    | .drawCards amount => .drawCards amount
    | .returnSpellToDeckTop => .returnSpellToDeckTop
    | .produceMana target => .produceMana (EffectTargetV1.ofCore.symm target)
    | .cannotBeMovedByOpponent target =>
        .cannotBeMovedByOpponent (EffectTargetV1.ofCore.symm target)
    | .readySummon => .readySummon
    | .swapOpposingPositions => .swapOpposingPositions
  left_inv v := by cases v <;> simp
  right_inv w := by cases w <;> simp

/-! ## Damage traces -/

def DamageOperationV1.ofCore : DamageOperation ≃ DamageOperationV1 where
  toFun
    | .add amount => .add amount
    | .reduce amount => .reduce amount
    | .clampToZero => .clampToZero
  invFun
    | .add amount => .add amount
    | .reduce amount => .reduce amount
    | .clampToZero => .clampToZero
  left_inv v := by cases v <;> rfl
  right_inv w := by cases w <;> rfl

def BattlefieldTargetV1.ofCore : BattlefieldTarget ≃ BattlefieldTargetV1 where
  toFun v := ⟨PlayerIdV1.ofCore v.controller, PositionV1.ofCore v.position⟩
  invFun w := ⟨PlayerIdV1.ofCore.symm w.controller, PositionV1.ofCore.symm w.position⟩
  left_inv v := by simp
  right_inv w := by simp

/-! ## Action errors -/

def ErrorV1.ofCore : ActionError ≃ ErrorV1 where
  toFun
    | .notYourDecision => .notYourDecision
    | .gameAlreadyOver => .gameAlreadyOver
    | .gameBroken => .gameBroken
    | .wrongPhase => .wrongPhase
    | .emptyPosition => .emptyPosition
    | .unknownCard => .unknownCard
    | .insufficientMana short => .insufficientMana (ManaBankV1.ofCore short)
    | .summonExhausted => .summonExhausted
    | .normalAttackAlreadyUsed => .normalAttackAlreadyUsed
    | .normalRetreatAlreadyUsed => .normalRetreatAlreadyUsed
    | .alreadyUpgradedThisTurn => .alreadyUpgradedThisTurn
    | .playedThisTurn => .playedThisTurn
    | .illegalUpgradeTarget => .illegalUpgradeTarget
    | .invalidTarget => .invalidTarget
    | .pendingInputMismatch => .pendingInputMismatch
    | .invalidManaHint => .invalidManaHint
  invFun
    | .notYourDecision => .notYourDecision
    | .gameAlreadyOver => .gameAlreadyOver
    | .gameBroken => .gameBroken
    | .wrongPhase => .wrongPhase
    | .emptyPosition => .emptyPosition
    | .unknownCard => .unknownCard
    | .insufficientMana short => .insufficientMana (ManaBankV1.ofCore.symm short)
    | .summonExhausted => .summonExhausted
    | .normalAttackAlreadyUsed => .normalAttackAlreadyUsed
    | .normalRetreatAlreadyUsed => .normalRetreatAlreadyUsed
    | .alreadyUpgradedThisTurn => .alreadyUpgradedThisTurn
    | .playedThisTurn => .playedThisTurn
    | .illegalUpgradeTarget => .illegalUpgradeTarget
    | .invalidTarget => .invalidTarget
    | .pendingInputMismatch => .pendingInputMismatch
    | .invalidManaHint => .invalidManaHint
  left_inv v := by cases v <;> simp
  right_inv w := by cases w <;> simp

end Summoners
