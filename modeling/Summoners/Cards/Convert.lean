import Summoners.Cards.Parse
import Summoners.Domain.EntityText

/-! # Conversion of a Set to core cards

`identity.rs`, `v1/convert.rs` and `v1/mod.rs`: every id is minted from the stable codes, and the
parsed model becomes a `CardSet`. The hash is the uuid crate's: `newV5` stands for `Uuid::new_v5`,
the namespace and the name to the hyphenated text of the id.

A `BTreeMap` is the list of its pairs, in the order they are inserted; no key is inserted twice.
-/

namespace Summoners
set_option autoImplicit false

open Checked

structure LoadedSet where
  id : EntityId
  code : String
  revision : UInt32
  name : String
  cards : CardSet
  cardIds : List (String × EntityId)
  abilityIds : List ((String × String) × EntityId)

/-! ## Identities -/

namespace Identity

/-- `ID_NAMESPACE`. -/
def idNamespace : Vector UInt8 16 :=
  #v[0x7d, 0x15, 0xee, 0x70, 0x92, 0x65, 0x4d, 0x4b, 0xa2, 0x58, 0x98, 0x3d, 0x27, 0xc5, 0x1f, 0x35]

variable (newV5 : Vector UInt8 16 → String → String)

def mint (input path : String) : Except SetLoadError EntityId :=
  let canonical := newV5 idNamespace input
  match EntityId.parse canonical with
  | .ok id => .ok id
  | .error _ => .error (.new .identity (some 1) path (.generatedIdRejected canonical))

def setId (code : Model.StableCode) : Except SetLoadError EntityId :=
  mint newV5 s!"set:{code.asStr}" "id"

def cardId (set card : Model.StableCode) (path : String) : Except SetLoadError EntityId :=
  mint newV5 s!"set:{set.asStr}/card:{card.asStr}" path

def abilityId (set card : Model.StableCode) (role : Model.AbilityRole) (ability : Model.StableCode)
    (path : String) : Except SetLoadError EntityId :=
  mint newV5 s!"set:{set.asStr}/card:{card.asStr}/ability:{role.identityName}:{ability.asStr}" path

end Identity

namespace Convert

/-! ## Leaves -/

def convertForm : Dto.Form → Form
  | .base => .base
  | .enhanced => .enhanced
  | .elite => .elite

def convertManaType : Dto.ManaType → ManaType
  | .matter => .matter
  | .mind => .mind
  | .spirit => .spirit

def addSymbol (cost : Cost) : Dto.ManaSymbol → Cost
  | .matter => { cost with matter := cost.matter + 1 }
  | .mind => { cost with mind := cost.mind + 1 }
  | .spirit => { cost with spirit := cost.spirit + 1 }
  | .generic => { cost with generic := cost.generic + 1 }

def convertCost (symbols : List Dto.ManaSymbol) : Cost := symbols.foldl addSymbol .default

def convertTiming : Dto.SpellTiming → SpellTiming
  | .support => .support
  | .attack => .attack

def convertTriggerEvent : Dto.TriggerEvent → TriggerEvent
  | .yourUpkeep => .yourUpkeep
  | .entersMain => .entersMain
  | .entersBench => .entersBench
  | .leavesMain => .leavesMain
  | .leavesBench => .leavesBench
  | .anySummonDestroyed => .anySummonDestroyed

def convertCondition : Dto.Condition → EffectCondition
  | .defenderEnteredMainThisTurn .controller => .defenderEnteredMainThisTurn
  | .spellPlayedThisTurn .controller => .spellPlayedThisTurn

def convertDamageConstraint : Dto.DamageConstraint → DamageConstraint
  | .unincreasable => .unincreasable
  | .unpreventable => .unpreventable

def convertDamageConstraints (constraints : List Dto.DamageConstraint) : DamageConstraints :=
  (constraints.map convertDamageConstraint).foldl DamageConstraints.insert .new

def convertOwnTarget : Model.OwnTarget → EffectTarget
  | .source => .source
  | .selected => .selected

/-- Of a `Damage` target nothing is left: the leaf hits the position the ability is aimed at. -/
def convertEffect : Model.Effect → EffectLeaf
  | .damage _ base constraints additions =>
      .dealDamage
        { base := base
          constraints := convertDamageConstraints constraints
          additions := additions.map (fun addition =>
            ⟨addition.amount, convertCondition addition.condition⟩) }
  | .heal target amount => .heal amount (convertOwnTarget target)
  | .moveOwnBenchedToEmptyBench => .moveSummon
  | .swapPositions .own => .swapPositions
  | .swapPositions .opposing => .swapOpposingPositions
  | .blockAttackSpells condition => .blockResponses (convertCondition condition) .attackSpells
  | .returnSpellFromDiscard => .returnSpellFromDiscard
  | .lookAtPrizes => .lookAtPrizes
  | .drawCards amount => .drawCards amount
  | .returnSpellToDeckTop => .returnSpellToDeckTop
  | .produceMana target => .produceMana (convertOwnTarget target)
  | .protectFromOpposingMovement target => .cannotBeMovedByOpponent (convertOwnTarget target)
  | .readyOwnSummon => .readySummon

def convertModifier (modifier : Dto.Modifier) (path : String) : Except SetLoadError Modifier :=
  match modifier with
  | .opposingRetreatCost amount =>
      if Model.fitsI32 amount then .ok (.opposingRetreatCostDelta (Int32.ofNat amount.toNat))
      else
        .error (.new .conversion (some 1) s!"{path}.amount"
          (.invalidSemantics .modifierAmountOutOfRange))
  | .incomingAttackDamageReduction amount => .ok (.incomingAttackDamageReduction amount)

def effectComponents (effects : List Model.Effect) : List Component :=
  effects.map (fun effect => .effect (convertEffect effect))

def abilityComponents (name : String) (cost : Option (List Dto.ManaSymbol))
    (effects : List Model.Effect) : List Component :=
  (if name.isEmpty then [] else [.name name]) ++
    (cost.map (fun symbols => Component.cost (convertCost symbols))).toList ++
    effectComponents effects

/-! ## Abilities and cards -/

structure IdentityRegistry where
  seenIds : List (EntityId × String)
  abilityIds : List ((String × String) × EntityId)

def rejectDuplicateId (seen : List (EntityId × String)) (id : EntityId) (path : String) :
    Except SetLoadError (List (EntityId × String)) :=
  match seen.find? (fun r => r.1 = id) with
  | some first => .error (.new .identity (some 1) path (.duplicateGeneratedId id first.2))
  | none => .ok ((id, path) :: seen)

def convertAbilityKind (id : EntityId) (ability : Model.Ability) (path : String) :
    Except SetLoadError Component :=
  match ability.kind with
  | .attack cost effects => .ok (.attack (.mk id (abilityComponents ability.name (some cost) effects)))
  | .skill cost effects => .ok (.skill (.mk id (abilityComponents ability.name (some cost) effects)))
  | .passive modifier => do
      let modifier ← convertModifier modifier s!"{path}.modifier"
      pure (.passive modifier)
  | .trigger event response effects =>
      .ok (.trigger (.mk id (abilityComponents ability.name none effects ++
        .event (convertTriggerEvent event) ::
          if response = .respondable then [.respondable] else [])))

section
variable (newV5 : Vector UInt8 16 → String → String)

def convertAbility (setCode cardCode : Model.StableCode) (cardIndex abilityIndex : ℕ)
    (registry : IdentityRegistry) (ability : Model.Ability) :
    Except SetLoadError (IdentityRegistry × Component) := do
  let path := s!"cards[{cardIndex}].abilities[{abilityIndex}]"
  let id ← Identity.abilityId newV5 setCode cardCode ability.role ability.code s!"{path}.code"
  let seen ← rejectDuplicateId registry.seenIds id s!"{path}.code"
  let component ← convertAbilityKind id ability path
  let key := (cardCode.asStr, ability.code.asStr)
  pure (⟨seen, registry.abilityIds ++ [(key, id)]⟩, component)

/-- The components of one card behind its name, and the registry with its abilities. -/
def convertCardKind (setCode : Model.StableCode) (card : Model.Card) (cardIndex : ℕ)
    (registry : IdentityRegistry) : Except SetLoadError (IdentityRegistry × List Component) :=
  match card.kind with
  | .summon form life types retreat abilities => do
      let (registry, components) ← collectWith
        (convertAbility newV5 setCode card.code cardIndex) 0 registry abilities
      pure (registry, [.form (convertForm form), .life life,
        .produces (types.map convertManaType), .retreatCost retreat] ++ components)
  | .spell timing cost effects =>
      .ok (registry, [.tags ["spell"], .timing (convertTiming timing), .cost (convertCost cost)] ++
        effectComponents effects)
  | .enchantment cost effects modifiers => do
      let passives ← collect (fun index modifier => do
        let modifier ← convertModifier modifier s!"cards[{cardIndex}].modifiers[{index}]"
        pure (Component.passive modifier)) 0 modifiers
      pure (registry, [.tags ["enchantment"], .timing .support, .cost (convertCost cost)] ++
        effectComponents effects ++ passives ++ [.persistent])

def convertCard (setCode : Model.StableCode) (card : Model.Card) (cardId : EntityId)
    (cardIndex : ℕ) (registry : IdentityRegistry) :
    Except SetLoadError (IdentityRegistry × Entity) := do
  let (registry, components) ← convertCardKind newV5 setCode card cardIndex registry
  pure (registry, .mk cardId (.name card.name :: components))

/-- One entry of the loop of `convert`. -/
def convertCardEntry (setCode : Model.StableCode) (cardIndex : ℕ)
    (state : IdentityRegistry × List (String × EntityId)) (card : Model.Card) :
    Except SetLoadError ((IdentityRegistry × List (String × EntityId)) × Entity) := do
  let codePath := s!"cards[{cardIndex}].code"
  let cardId ← Identity.cardId newV5 setCode card.code codePath
  let seen ← rejectDuplicateId state.1.seenIds cardId codePath
  let (registry, entity) ← convertCard newV5 setCode card cardId cardIndex
    { state.1 with seenIds := seen }
  pure ((registry, state.2 ++ [(card.code.asStr, cardId)]), entity)

def convert (set : Model.Set) : Except SetLoadError LoadedSet := do
  let setId ← Identity.setId newV5 set.code
  let ((registry, cardIds), entities) ← collectWith (convertCardEntry newV5 set.code) 0
    (⟨[(setId, "id")], []⟩, []) set.cards
  pure
    { id := setId
      code := set.code.asStr
      revision := set.revision
      name := set.name
      cards := ⟨entities⟩
      cardIds := cardIds
      abilityIds := registry.abilityIds }

end

end Convert

/-- `v1::load`: what `parse_set` does with a decoded document. -/
def load (newV5 : Vector UInt8 16 → String → String) (decoded : Dto.Set) :
    Except SetLoadError LoadedSet := do
  let validated ← Model.parse decoded
  Convert.convert newV5 validated

end Summoners
