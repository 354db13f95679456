import Mathlib.Data.Int.Notation
import Summoners.Domain.Cards

/-! # The authored Set document

`crates/cards`: the decoded document of `v1/dto.rs` and the load errors of `error.rs`. Decoding the
text is the TOML and serde crates' work; a document starts here as the value they hand over. Phases
and causes of the decoding itself are left out.
-/

namespace Summoners
set_option autoImplicit false

namespace Dto

inductive CardKind
  | summon
  | spell
  | enchantment
  deriving DecidableEq

inductive Form
  | base
  | enhanced
  | elite
  deriving DecidableEq

inductive ManaType
  | matter
  | mind
  | spirit
  deriving DecidableEq

inductive ManaSymbol
  | matter
  | mind
  | spirit
  | generic
  deriving DecidableEq

inductive SpellTiming
  | support
  | attack
  deriving DecidableEq

inductive Persistence
  | discard
  | persistent
  deriving DecidableEq

inductive AbilityKind
  | attack
  | skill
  | passive
  | trigger
  deriving DecidableEq

inductive TriggerEvent
  | yourUpkeep
  | entersMain
  | entersBench
  | leavesMain
  | leavesBench
  | anySummonDestroyed
  deriving DecidableEq

inductive ResponseMode
  | immediate
  | respondable
  deriving DecidableEq

inductive DamageConstraint
  | unincreasable
  | unpreventable
  deriving DecidableEq

inductive Target
  | defendingMain
  | selectedOpposingPosition
  | source
  | selectedOwnSummon
  | selectedOwnBenchedSummon
  | ownMainWithSelectedBench
  | opposingMainWithSelectedBench
  deriving DecidableEq

inductive Destination
  | emptyOwnBench
  deriving DecidableEq

inductive Duration
  | untilYourNextTurn
  deriving DecidableEq

inductive ResponseBlock
  | attackSpells
  deriving DecidableEq

inductive RelativePlayer
  | controller
  deriving DecidableEq

inductive Condition
  | defenderEnteredMainThisTurn (player : RelativePlayer)
  | spellPlayedThisTurn (player : RelativePlayer)
  deriving DecidableEq

inductive Modifier
  | opposingRetreatCost (amount : UInt32)
  | incomingAttackDamageReduction (amount : UInt32)
  deriving DecidableEq

structure DamageAddition where
  amount : UInt32
  condition : Condition

inductive Effect
  | damage (target : Target) (base : UInt32) (constraints : List DamageConstraint)
      (additions : List DamageAddition)
  | heal (target : Target) (amount : UInt32)
  | moveSummon (target : Target) (destination : Destination)
  | swapPositions (target : Target)
  | blockResponses (condition : Condition) (response : ResponseBlock)
  | returnSpellFromDiscard
  | lookAtPrizes
  | drawCards (amount : UInt32)
  | returnSpellToDeckTop
  | produceMana (target : Target)
  | cannotBeMovedByOpponent (target : Target) (duration : Duration)
  | readySummon (target : Target)

structure Ability where
  code : String
  name : String
  text : String
  kind : AbilityKind
  cost : Option (List ManaSymbol)
  event : Option TriggerEvent
  response : Option ResponseMode
  effects : List Effect
  modifier : Option Modifier

structure Card where
  code : String
  name : String
  text : String
  kind : CardKind
  form : Option Form
  life : Option UInt32
  types : Option (List ManaType)
  retreat : Option UInt32
  timing : Option SpellTiming
  persistence : Option Persistence
  cost : Option (List ManaSymbol)
  abilities : List Ability
  effects : List Effect
  modifiers : List Modifier

structure Set where
  schemaVersion : UInt32
  id : String
  revision : UInt32
  name : String
  cards : List Card

/-- `format!("{mana:?}")`. -/
def ManaType.debugName : ManaType → String
  | .matter => "Matter"
  | .mind => "Mind"
  | .spirit => "Spirit"

/-- `format!("{constraint:?}")`. -/
def DamageConstraint.debugName : DamageConstraint → String
  | .unincreasable => "Unincreasable"
  | .unpreventable => "Unpreventable"

end Dto

/-! ## Load errors -/

inductive DocumentKind
  | set
  | deck
  deriving DecidableEq

inductive LoadPhase
  | version
  | semantics
  | identity
  | conversion
  deriving DecidableEq

inductive StableKeyKind
  | set
  | card
  | ability
  deriving DecidableEq

inductive SemanticRule
  | setMustContainCards
  | revisionMustBePositive
  | nameMustNotBeEmpty
  | summonRequiresStatistics
  | nonSummonForbidsStatistics
  | summonRequiresOneAttack
  | manaTypesMustBeUnique
  | abilityShape
  | spellShape
  | enchantmentShape
  | effectTarget
  | effectCombination
  | amountMustBePositive
  | modifierAmountOutOfRange
  deriving DecidableEq

inductive SetLoadCause
  | unsupportedSchemaVersion (found : ℤ)
  | invalidStableKey (kind : StableKeyKind) (value : String)
  | duplicateStableKey (kind : StableKeyKind) (value firstPath : String)
  | duplicateGeneratedId (id : EntityId) (firstPath : String)
  | generatedIdRejected (id : String)
  | missingRequiredField (field : String)
  | forbiddenField (field : String)
  | duplicateValue (value firstPath : String)
  | invalidSemantics (rule : SemanticRule)
  deriving DecidableEq

structure SetLoadError where
  document : DocumentKind
  phase : LoadPhase
  schemaVersion : Option ℤ
  path : String
  cause : SetLoadCause
  deriving DecidableEq

def SetLoadError.new (phase : LoadPhase) (schemaVersion : Option ℤ) (path : String)
    (cause : SetLoadCause) : SetLoadError :=
  ⟨.set, phase, schemaVersion, path, cause⟩

end Summoners
