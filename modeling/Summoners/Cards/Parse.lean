import Summoners.Cards.Model
import Summoners.Checked.Collect

/-! # Semantic parsing of a Set

`v1/model.rs`: `parse` and the functions it calls, from the decoded document to the model. Every
effect is read in the context of the ability or card it is printed on.
-/

namespace Summoners.Model
set_option autoImplicit false

open Checked

/-! ## Effects -/

def sourceTarget : Dto.Effect → Option Dto.Target
  | .damage target _ _ _ | .heal target _ | .moveSummon target _ | .swapPositions target
  | .produceMana target | .cannotBeMovedByOpponent target _ | .readySummon target => some target
  | .blockResponses _ _ | .returnSpellFromDiscard | .lookAtPrizes | .drawCards _
  | .returnSpellToDeckTop => none

def rejectSourceWithoutPosition (effect : Dto.Effect) (context : EffectContext) (path : String) :
    Except SetLoadError Unit :=
  match context with
  | .attackSpell | .supportSpell | .enchantment =>
      if sourceTarget effect = some .source then
        .error (ruleError s!"{path}.target" .effectTarget)
      else .ok ()
  | _ => .ok ()

/-- The loop of `reject_duplicate_constraints`. -/
def rejectSeenConstraints (path : String) (seen : List (String × String)) :
    ℕ → List Dto.DamageConstraint → Except SetLoadError Unit
  | _, [] => .ok ()
  | index, constraint :: rest =>
      let value := constraint.debugName
      let itemPath := s!"{path}[{index}]"
      match seenAt seen value with
      | some firstPath => .error (semanticError itemPath (.duplicateValue value firstPath))
      | none => rejectSeenConstraints path ((value, itemPath) :: seen) (index + 1) rest

def rejectDuplicateConstraints (raw : List Dto.DamageConstraint) (path : String) :
    Except SetLoadError Unit :=
  rejectSeenConstraints path [] 0 raw

def parseAddition (path : String) (index : ℕ) (addition : Dto.DamageAddition) :
    Except SetLoadError DamageAddition := do
  requirePositive addition.amount s!"{path}.additions[{index}].amount" .amountMustBePositive
  pure ⟨addition.amount, addition.condition⟩

def parseDamageTarget (context : EffectContext) (target : Dto.Target) (path : String) :
    Except SetLoadError DamageTarget :=
  match context, target with
  | .attack, .defendingMain => .ok .defendingMain
  | .attackSpell, .selectedOpposingPosition => .ok .selectedOpposingPosition
  | _, _ => .error (ruleError s!"{path}.target" .effectTarget)

def parseHealTarget (context : EffectContext) (target : Dto.Target) (path : String) :
    Except SetLoadError OwnTarget :=
  match context, target with
  | .skill, .source | .trigger, .source => .ok .source
  | .supportSpell, .selectedOwnSummon | .enchantment, .selectedOwnSummon => .ok .selected
  | _, _ => .error (ruleError s!"{path}.target" .effectTarget)

def parseEffect (raw : Dto.Effect) (context : EffectContext) (path : String) :
    Except SetLoadError Effect := do
  rejectSourceWithoutPosition raw context path
  match raw with
  | .damage target base constraints additions =>
      requirePositive base s!"{path}.base" .amountMustBePositive
      let target ← parseDamageTarget context target path
      rejectDuplicateConstraints constraints s!"{path}.constraints"
      let additions ← collect (parseAddition path) 0 additions
      pure (.damage target base constraints additions)
  | .heal target amount =>
      requirePositive amount s!"{path}.amount" .amountMustBePositive
      let target ← parseHealTarget context target path
      pure (.heal target amount)
  | .moveSummon target destination =>
      if context = .skill ∧ target = .selectedOwnBenchedSummon ∧ destination = .emptyOwnBench then
        pure .moveOwnBenchedToEmptyBench
      else .error (ruleError path .effectCombination)
  | .swapPositions target =>
      match context, target with
      | .skill, .ownMainWithSelectedBench => pure (.swapPositions .own)
      | .skill, .opposingMainWithSelectedBench => pure (.swapPositions .opposing)
      | _, _ => .error (ruleError s!"{path}.target" .effectTarget)
  | .blockResponses condition response =>
      if context = .attack ∧ response = .attackSpells then pure (.blockAttackSpells condition)
      else .error (ruleError path .effectCombination)
  | .returnSpellFromDiscard =>
      if context = .trigger then pure .returnSpellFromDiscard
      else .error (ruleError path .effectCombination)
  | .lookAtPrizes =>
      if context = .skill then pure .lookAtPrizes else .error (ruleError path .effectCombination)
  | .drawCards amount =>
      if context = .skill ∨ context = .supportSpell then do
        requirePositive amount s!"{path}.amount" .amountMustBePositive
        pure (.drawCards amount)
      else .error (ruleError path .effectCombination)
  | .returnSpellToDeckTop =>
      if context = .skill then pure .returnSpellToDeckTop
      else .error (ruleError path .effectCombination)
  | .produceMana target =>
      match context, target with
      | .skill, .selectedOwnSummon => pure (.produceMana .selected)
      | .trigger, .source => pure (.produceMana .source)
      | _, _ => .error (ruleError s!"{path}.target" .effectTarget)
  | .cannotBeMovedByOpponent target duration =>
      if context = .skill ∧ target = .source ∧ duration = .untilYourNextTurn then
        pure (.protectFromOpposingMovement .source)
      else .error (ruleError path .effectCombination)
  | .readySummon target =>
      if context = .supportSpell ∧ target = .selectedOwnSummon then pure .readyOwnSummon
      else .error (ruleError path .effectCombination)

def parseEffects (raw : List Dto.Effect) (context : EffectContext) (path : String) :
    Except SetLoadError (List Effect) :=
  if raw.isEmpty then .error (ruleError path .abilityShape)
  else collect (fun index effect => parseEffect effect context s!"{path}[{index}]") 0 raw

/-! ## Modifiers and Mana Types -/

def modifierAmount : Dto.Modifier → UInt32
  | .opposingRetreatCost amount | .incomingAttackDamageReduction amount => amount

/-- `i32::try_from(amount)` succeeds. -/
def fitsI32 (amount : UInt32) : Bool := amount.toNat ≤ 2147483647

def parseModifier (modifier : Dto.Modifier) (path : String) : Except SetLoadError Unit := do
  requirePositive (modifierAmount modifier) s!"{path}.amount" .amountMustBePositive
  match modifier with
  | .opposingRetreatCost amount =>
      if fitsI32 amount then pure ()
      else .error (ruleError s!"{path}.amount" .modifierAmountOutOfRange)
  | .incomingAttackDamageReduction _ => pure ()

def parseModifiers (raw : List Dto.Modifier) (path : String) :
    Except SetLoadError (List Dto.Modifier) :=
  collect (fun index modifier => do
    parseModifier modifier s!"{path}[{index}]"
    pure modifier) 0 raw

/-- The loop of `parse_mana_types`. -/
def rejectSeenTypes (path : String) (seen : List String) :
    ℕ → List Dto.ManaType → Except SetLoadError Unit
  | _, [] => .ok ()
  | index, mana :: rest =>
      let name := mana.debugName
      if name ∈ seen then .error (semanticError s!"{path}[{index}]" (.duplicateValue name path))
      else rejectSeenTypes path (name :: seen) (index + 1) rest

def parseManaTypes (raw : List Dto.ManaType) (path : String) :
    Except SetLoadError (List Dto.ManaType) :=
  if raw.isEmpty then .error (ruleError path .summonRequiresStatistics)
  else do
    rejectSeenTypes path [] 0 raw
    pure raw

/-! ## Abilities -/

def parseAbilityKind (raw : Dto.Ability) (path : String) : Except SetLoadError AbilityKind :=
  match raw.kind with
  | .attack => do
      forbidOption raw.event path "event"
      forbidOption raw.response path "response"
      forbidOption raw.modifier path "modifier"
      let cost ← required raw.cost path "cost"
      let effects ← parseEffects raw.effects .attack s!"{path}.effects"
      pure (.attack cost effects)
  | .skill => do
      forbidOption raw.event path "event"
      forbidOption raw.response path "response"
      forbidOption raw.modifier path "modifier"
      let cost ← required raw.cost path "cost"
      let effects ← parseEffects raw.effects .skill s!"{path}.effects"
      pure (.skill cost effects)
  | .passive => do
      forbidOption raw.cost path "cost"
      forbidOption raw.event path "event"
      forbidOption raw.response path "response"
      forbidList raw.effects path "effects"
      let modifier ← required raw.modifier path "modifier"
      parseModifier modifier s!"{path}.modifier"
      pure (.passive modifier)
  | .trigger => do
      forbidOption raw.cost path "cost"
      forbidOption raw.modifier path "modifier"
      let event ← required raw.event path "event"
      let response ← required raw.response path "response"
      let effects ← parseEffects raw.effects .trigger s!"{path}.effects"
      pure (.trigger event response effects)

def parseAbility (raw : Dto.Ability) (code : StableCode) (path : String) :
    Except SetLoadError Ability := do
  let kind ← parseAbilityKind raw path
  pure ⟨code, raw.name, raw.text, kind⟩

/-- One entry of the loop of `parse_abilities`. -/
def parseAbilityEntry (cardPath : String) (index : ℕ) (seen : List (String × String))
    (raw : Dto.Ability) : Except SetLoadError (List (String × String) × Ability) := do
  let path := s!"{cardPath}.abilities[{index}]"
  let code ← StableCode.parse raw.code .ability s!"{path}.code"
  let seen ← rejectDuplicate seen code.asStr s!"{path}.code" .ability
  let ability ← parseAbility raw code path
  pure (seen, ability)

def parseAbilities (raw : List Dto.Ability) (cardPath : String) :
    Except SetLoadError (List Ability) :=
  if raw.isEmpty then .error (ruleError s!"{cardPath}.abilities" .summonRequiresOneAttack)
  else do
    let (_, abilities) ← collectWith (parseAbilityEntry cardPath) 0 [] raw
    pure abilities

/-! ## Cards -/

def isAttack (ability : Ability) : Bool :=
  match ability.kind with
  | .attack _ _ => true
  | _ => false

def parseSummon (raw : Dto.Card) (path : String) : Except SetLoadError CardKind := do
  forbidOption raw.timing path "timing"
  forbidOption raw.persistence path "persistence"
  forbidOption raw.cost path "cost"
  forbidList raw.effects path "effects"
  forbidList raw.modifiers path "modifiers"
  let form ← required raw.form path "form"
  let life ← required raw.life path "life"
  requirePositive life s!"{path}.life" .summonRequiresStatistics
  let types ← required raw.types path "types"
  let types ← parseManaTypes types s!"{path}.types"
  let retreat ← required raw.retreat path "retreat"
  let abilities ← parseAbilities raw.abilities path
  if (abilities.filter isAttack).length ≠ 1 then
    .error (ruleError s!"{path}.abilities" .summonRequiresOneAttack)
  else pure (.summon form life types retreat abilities)

def parseSpell (raw : Dto.Card) (path : String) : Except SetLoadError CardKind := do
  forbidSummonFields raw path
  forbidList raw.abilities path "abilities"
  forbidList raw.modifiers path "modifiers"
  let timing ← required raw.timing path "timing"
  let persistence ← required raw.persistence path "persistence"
  if persistence ≠ .discard then .error (ruleError s!"{path}.persistence" .spellShape)
  else do
    let cost ← required raw.cost path "cost"
    let context : EffectContext :=
      match timing with
      | .attack => .attackSpell
      | .support => .supportSpell
    let effects ← parseEffects raw.effects context s!"{path}.effects"
    pure (.spell timing cost effects)

def parseEnchantment (raw : Dto.Card) (path : String) : Except SetLoadError CardKind := do
  forbidSummonFields raw path
  forbidList raw.abilities path "abilities"
  let timing ← required raw.timing path "timing"
  let persistence ← required raw.persistence path "persistence"
  if timing ≠ .support ∨ persistence ≠ .persistent then .error (ruleError path .enchantmentShape)
  else do
    let cost ← required raw.cost path "cost"
    let effects ← parseEffects raw.effects .enchantment s!"{path}.effects"
    let modifiers ← parseModifiers raw.modifiers s!"{path}.modifiers"
    pure (.enchantment cost effects modifiers)

def parseCardKind (raw : Dto.Card) (path : String) : Except SetLoadError CardKind :=
  match raw.kind with
  | .summon => parseSummon raw path
  | .spell => parseSpell raw path
  | .enchantment => parseEnchantment raw path

def parseCard (raw : Dto.Card) (code : StableCode) (path : String) : Except SetLoadError Card := do
  requireName raw.name s!"{path}.name"
  let kind ← parseCardKind raw path
  pure ⟨code, raw.name, raw.text, kind⟩

/-- One entry of the loop of `parse`. -/
def parseCardEntry (index : ℕ) (seen : List (String × String)) (raw : Dto.Card) :
    Except SetLoadError (List (String × String) × Card) := do
  let path := s!"cards[{index}]"
  let code ← StableCode.parse raw.code .card s!"{path}.code"
  let seen ← rejectDuplicate seen code.asStr s!"{path}.code" .card
  let card ← parseCard raw code path
  pure (seen, card)

def parse (decoded : Dto.Set) : Except SetLoadError Set :=
  if decoded.schemaVersion ≠ 1 then
    let found : ℤ := decoded.schemaVersion.toNat
    .error (.new .version (some found) "schema_version" (.unsupportedSchemaVersion found))
  else do
    let code ← StableCode.parse decoded.id .set "id"
    requirePositive decoded.revision "revision" .revisionMustBePositive
    requireName decoded.name "name"
    if decoded.cards.isEmpty then .error (ruleError "cards" .setMustContainCards)
    else do
      let (_, cards) ← collectWith parseCardEntry 0 [] decoded.cards
      pure ⟨code, decoded.revision, decoded.name, cards⟩

end Summoners.Model
