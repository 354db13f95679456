import Mathlib.Data.List.Forall2
import Summoners.Cards.Convert

/-! # What an authored card prints

`Dto.Card.PrintedOn` says what every read of an entity returns when the entity prints an authored
card: the family, every single statistic, and its effects and abilities in authored order. The
relations compare the document with the components directly; `printedOn_of_load` says that parsing
and conversion together establish them.
-/

namespace Summoners
set_option autoImplicit false

open Checked Summoners.Convert

/-! ## The authored vocabulary -/

def Dto.CardKind.core : Dto.CardKind → Summoners.CardKind
  | .summon => .summon
  | .spell => .spell
  | .enchantment => .enchantment

/-- The tags a family prints. -/
def Dto.CardKind.tags : Dto.CardKind → List (List String)
  | .summon => []
  | .spell => [["spell"]]
  | .enchantment => [["enchantment"]]

def Dto.Form.core : Dto.Form → Summoners.Form
  | .base => .base
  | .enhanced => .enhanced
  | .elite => .elite

def Dto.ManaType.core : Dto.ManaType → Summoners.ManaType
  | .matter => .matter
  | .mind => .mind
  | .spirit => .spirit

def Dto.SpellTiming.core : Dto.SpellTiming → Summoners.SpellTiming
  | .support => .support
  | .attack => .attack

def Dto.TriggerEvent.core : Dto.TriggerEvent → Summoners.TriggerEvent
  | .yourUpkeep => .yourUpkeep
  | .entersMain => .entersMain
  | .entersBench => .entersBench
  | .leavesMain => .leavesMain
  | .leavesBench => .leavesBench
  | .anySummonDestroyed => .anySummonDestroyed

def Dto.Condition.core : Dto.Condition → EffectCondition
  | .defenderEnteredMainThisTurn _ => .defenderEnteredMainThisTurn
  | .spellPlayedThisTurn _ => .spellPlayedThisTurn

def Dto.DamageConstraint.core : Dto.DamageConstraint → Summoners.DamageConstraint
  | .unincreasable => .unincreasable
  | .unpreventable => .unpreventable

/-- How often each symbol is authored in a Cost. -/
def symbolCounts (symbols : List Dto.ManaSymbol) : Cost :=
  ⟨.ofNat (symbols.count .matter), .ofNat (symbols.count .mind), .ofNat (symbols.count .spirit),
    .ofNat (symbols.count .generic)⟩

/-- An authored effect, where it stands, and the leaf that prints it. -/
inductive Dto.Effect.Prints : Model.EffectContext → Dto.Effect → EffectLeaf → Prop
  | damage {context : Model.EffectContext} {target : Dto.Target} {base : UInt32}
      {constraints : List Dto.DamageConstraint} {additions : List Dto.DamageAddition}
      {effect : DamageEffect}
      (htarget : context = .attack ∧ target = .defendingMain ∨
        context = .attackSpell ∧ target = .selectedOpposingPosition)
      (hbase : effect.base = base)
      (hconstraints : ∀ k : Dto.DamageConstraint,
        effect.constraints.contains k.core = decide (k ∈ constraints))
      (hadditions : effect.additions = additions.map (fun a => ⟨a.amount, a.condition.core⟩)) :
      Prints context (.damage target base constraints additions) (.dealDamage effect)
  | healSource {context : Model.EffectContext} {amount : UInt32}
      (hcontext : context = .skill ∨ context = .trigger) :
      Prints context (.heal .source amount) (.heal amount .source)
  | healSelected {context : Model.EffectContext} {amount : UInt32}
      (hcontext : context = .supportSpell ∨ context = .enchantment) :
      Prints context (.heal .selectedOwnSummon amount) (.heal amount .selected)
  | moveSummon : Prints .skill (.moveSummon .selectedOwnBenchedSummon .emptyOwnBench) .moveSummon
  | swapOwn : Prints .skill (.swapPositions .ownMainWithSelectedBench) .swapPositions
  | swapOpposing :
      Prints .skill (.swapPositions .opposingMainWithSelectedBench) .swapOpposingPositions
  | blockResponses {condition : Dto.Condition} :
      Prints .attack (.blockResponses condition .attackSpells)
        (.blockResponses condition.core .attackSpells)
  | returnSpellFromDiscard : Prints .trigger .returnSpellFromDiscard .returnSpellFromDiscard
  | lookAtPrizes : Prints .skill .lookAtPrizes .lookAtPrizes
  | drawCards {context : Model.EffectContext} {amount : UInt32}
      (hcontext : context = .skill ∨ context = .supportSpell) :
      Prints context (.drawCards amount) (.drawCards amount)
  | returnSpellToDeckTop : Prints .skill .returnSpellToDeckTop .returnSpellToDeckTop
  | produceSelected : Prints .skill (.produceMana .selectedOwnSummon) (.produceMana .selected)
  | produceSource : Prints .trigger (.produceMana .source) (.produceMana .source)
  | cannotBeMoved : Prints .skill (.cannotBeMovedByOpponent .source .untilYourNextTurn)
      (.cannotBeMovedByOpponent .source)
  | readySummon : Prints .supportSpell (.readySummon .selectedOwnSummon) .readySummon

/-- An authored modifier and the one that prints it. -/
inductive Dto.Modifier.Prints : Dto.Modifier → Summoners.Modifier → Prop
  | opposingRetreatCost {amount : UInt32} {delta : Int32} (hdelta : delta.toInt = amount.toNat) :
      Prints (.opposingRetreatCost amount) (.opposingRetreatCostDelta delta)
  | incomingAttackDamageReduction {amount : UInt32} :
      Prints (.incomingAttackDamageReduction amount) (.incomingAttackDamageReduction amount)

/-! ## Reads -/

section
variable {α β : Type}

/-- Both reads of a field return what is listed. -/
structure Entity.Reads (e : Entity) (field : ComponentField α) (values : List α) : Prop where
  all : e.all field = values
  get : e.get field = values.head?

/-- Both reads of a field return what is related to the entries listed, one for each. -/
structure Entity.ReadsLike (e : Entity) (field : ComponentField α) (R : β → α → Prop)
    (entries : List β) : Prop where
  all : List.Forall₂ R entries (e.all field)
  get : e.get field = (e.all field).head?

end

/-- What an ability of a context prints on its entity, and nothing else. -/
structure Dto.Ability.Prints (context : Model.EffectContext) (ability : Dto.Ability) (e : Entity) :
    Prop where
  name : e.Reads .name (if ability.name = "" then [] else [ability.name])
  cost : e.Reads .cost (ability.cost.map symbolCounts).toList
  effects : e.ReadsLike .effectLeaf (Dto.Effect.Prints context) ability.effects
  event : e.Reads .triggerEvent (ability.event.map Dto.TriggerEvent.core).toList
  respondable : e.Reads .respondable (if ability.response = some .respondable then [()] else [])
  accountingId : e.Reads .accountingId []
  life : e.Reads .life []
  retreatCost : e.Reads .retreatCost []
  form : e.Reads .form []
  manaTypes : e.Reads .manaTypes []
  tags : e.Reads .tags []
  skills : e.Reads .skill []
  attack : e.Reads .attack []
  triggers : e.Reads .trigger []
  modifiers : e.Reads .modifier []
  timing : e.Reads .spellTiming []
  persistent : e.Reads .persistent []

/-- Where the effects of a card itself stand. -/
def Dto.Card.context (card : Dto.Card) : Model.EffectContext :=
  match card.kind, card.timing with
  | .enchantment, _ => .enchantment
  | _, some .attack => .attackSpell
  | _, _ => .supportSpell

/-- The abilities of one kind, in authored order. -/
def Dto.Card.abilitiesOf (card : Dto.Card) (kind : Dto.AbilityKind) : List Dto.Ability :=
  card.abilities.filter (fun ability => ability.kind = kind)

/-- The passive modifiers, of abilities and of the card itself. -/
def Dto.Card.passives (card : Dto.Card) : List Dto.Modifier :=
  (card.abilitiesOf .passive).filterMap Dto.Ability.modifier ++ card.modifiers

/-- What an authored card prints on its entity, and nothing else. -/
structure Dto.Card.PrintedOn (card : Dto.Card) (e : Entity) : Prop where
  family : family e = card.kind.core
  name : e.Reads .name [card.name]
  tags : e.Reads .tags card.kind.tags
  form : e.Reads .form (card.form.map Dto.Form.core).toList
  life : e.Reads .life card.life.toList
  manaTypes : e.Reads .manaTypes (card.types.map (List.map Dto.ManaType.core)).toList
  retreatCost : e.Reads .retreatCost card.retreat.toList
  cost : e.Reads .cost (card.cost.map symbolCounts).toList
  timing : e.Reads .spellTiming (card.timing.map Dto.SpellTiming.core).toList
  effects : e.ReadsLike .effectLeaf (Dto.Effect.Prints card.context) card.effects
  attack : e.ReadsLike .attack (Dto.Ability.Prints .attack) (card.abilitiesOf .attack)
  skills : e.ReadsLike .skill (Dto.Ability.Prints .skill) (card.abilitiesOf .skill)
  triggers : e.ReadsLike .trigger (Dto.Ability.Prints .trigger) (card.abilitiesOf .trigger)
  modifiers : e.ReadsLike .modifier Dto.Modifier.Prints card.passives
  persistent : e.Reads .persistent (if card.kind = .enchantment then [()] else [])
  accountingId : e.Reads .accountingId []
  event : e.Reads .triggerEvent []
  respondable : e.Reads .respondable []

/-- The entities of the abilities among some components. -/
def abilityEntities (components : List Component) : List Entity :=
  components.filterMap (fun
    | .attack ability | .skill ability | .trigger ability => some ability
    | _ => none)

def Entity.abilityIds (e : Entity) : List EntityId := (abilityEntities e.components).map Entity.id

/-! ## Reading components -/

section
variable {α β : Type} {field : ComponentField α} {e : Entity}

theorem Entity.get_eq_head (e : Entity) (field : ComponentField α) :
    e.get field = (e.all field).head? := by
  unfold Entity.get Entity.all
  rw [List.head?_filterMap]

theorem Entity.reads_of_all {values : List α} (h : e.all field = values) : e.Reads field values :=
  ⟨h, by rw [e.get_eq_head, h]⟩

theorem Entity.readsLike_of_all {R : β → α → Prop} {entries : List β}
    (h : List.Forall₂ R entries (e.all field)) : e.ReadsLike field R entries :=
  ⟨h, e.get_eq_head field⟩

theorem filterMap_one (f : β → Option α) (b : β) : [b].filterMap f = (f b).toList := by
  cases h : f b <;> simp [h]

theorem filterMap_cons_toList (f : β → Option α) (b : β) (l : List β) :
    (b :: l).filterMap f = (f b).toList ++ l.filterMap f := by
  rw [← List.singleton_append, List.filterMap_append, filterMap_one]

theorem filterMap_toList (f : β → Option α) (o : Option β) :
    o.toList.filterMap f = (o.bind f).toList := by
  cases o with
  | none => rfl
  | some b => exact filterMap_one f b

/-- Effects are read as leaves and as nothing else. -/
theorem filterMap_effectComponents {effects : List Model.Effect}
    (h : ∀ leaf, field.extract (.effect leaf) = none) :
    (effectComponents effects).filterMap field.extract = [] := by
  refine List.filterMap_eq_nil_iff.mpr (fun c hc => ?_)
  obtain ⟨effect, -, rfl⟩ := List.mem_map.mp hc
  exact h _

theorem leaves_effectComponents (effects : List Model.Effect) :
    (effectComponents effects).filterMap ComponentField.effectLeaf.extract =
      effects.map convertEffect := by
  unfold effectComponents
  rw [List.filterMap_map, ← List.filterMap_eq_map]
  rfl

end

/-! ## Single fields -/

section
variable {α : Type} {value : Option α} {path field : String}

theorem Model.required_ok_iff {a : α} : Model.required value path field = .ok a ↔ value = some a := by
  cases value <;> simp [Model.required]

theorem Model.forbidOption_ok_iff {u : Unit} :
    Model.forbidOption value path field = .ok u ↔ value = none := by
  cases value <;> simp [Model.forbidOption]

theorem Model.forbidList_ok_iff {values : List α} {u : Unit} :
    Model.forbidList values path field = .ok u ↔ values = [] := by
  cases values <;> simp [Model.forbidList]

end

/-! ## Effects -/

theorem convertCost_eq (symbols : List Dto.ManaSymbol) : convertCost symbols = symbolCounts symbols := by
  have hfold : ∀ (symbols : List Dto.ManaSymbol) (cost : Cost), symbols.foldl addSymbol cost =
      ⟨cost.matter + .ofNat (symbols.count .matter), cost.mind + .ofNat (symbols.count .mind),
        cost.spirit + .ofNat (symbols.count .spirit),
        cost.generic + .ofNat (symbols.count .generic)⟩ := by
    intro symbols
    induction symbols with
    | nil => intro cost; simp
    | cons symbol symbols ih =>
        intro cost
        rw [List.foldl_cons, ih]
        cases symbol <;>
          simp [addSymbol, UInt32.ofNat_add, UInt32.add_assoc, UInt32.add_comm]
  unfold convertCost
  rw [hfold]
  simp [symbolCounts, Cost.default]

theorem convertDamageConstraints_contains (constraints : List Dto.DamageConstraint)
    (k : Dto.DamageConstraint) :
    (convertDamageConstraints constraints).contains k.core = decide (k ∈ constraints) := by
  have hcore : ∀ j : Dto.DamageConstraint,
      decide (convertDamageConstraint j = k.core) = decide (j = k) := by
    intro j
    cases j <;> cases k <;> rfl
  have hfold : ∀ (constraints : List Dto.DamageConstraint) (c : DamageConstraints),
      ((constraints.map convertDamageConstraint).foldl DamageConstraints.insert c).contains k.core =
        (c.contains k.core || decide (k ∈ constraints)) := by
    intro constraints
    induction constraints with
    | nil => intro c; simp
    | cons j constraints ih =>
        intro c
        rw [List.map_cons, List.foldl_cons, ih, DamageConstraints.contains_insert, hcore,
          Bool.or_assoc]
        simp [eq_comm]
  unfold convertDamageConstraints
  rw [hfold]
  cases k <;> rfl

theorem convertCondition_eq (condition : Dto.Condition) :
    convertCondition condition = condition.core := by
  cases condition with
  | defenderEnteredMainThisTurn player => rfl
  | spellPlayedThisTurn player => rfl

section
variable {context : Model.EffectContext} {path : String}

theorem parseAdditions_eq {raw : List Dto.DamageAddition} {additions : List Model.DamageAddition}
    (h : collect (Model.parseAddition path) 0 raw = .ok additions) :
    additions.map (fun a => (⟨a.amount, convertCondition a.condition⟩ : DamageAddition)) =
      raw.map (fun a => ⟨a.amount, a.condition.core⟩) := by
  have hsame : List.Forall₂ (fun (r : Dto.DamageAddition) (a : Model.DamageAddition) =>
      (⟨r.amount, r.condition⟩ : Model.DamageAddition) = a) raw additions := by
    refine forall₂_of_collect h (fun hentry => ?_)
    simp only [Model.parseAddition, bind_ok_iff, pure_ok_iff] at hentry
    obtain ⟨-, -, heq⟩ := hentry
    exact heq
  rw [← List.forall₂_map_left_iff, List.forall₂_eq_eq_eq] at hsame
  rw [← hsame, List.map_map]
  exact List.map_congr_left (fun a _ => by simp [convertCondition_eq])

/-- **An effect that parses is printed as it was authored.** -/
theorem parseEffect_prints {raw : Dto.Effect} {effect : Model.Effect}
    (h : Model.parseEffect raw context path = .ok effect) :
    raw.Prints context (convertEffect effect) := by
  unfold Model.parseEffect at h
  rw [bind_ok_iff] at h
  obtain ⟨-, -, h⟩ := h
  cases raw with
  | damage target base constraints additions =>
      simp only [bind_ok_iff, pure_ok_iff] at h
      obtain ⟨-, -, t, ht, -, -, parsed, hparsed, rfl⟩ := h
      refine .damage ?_ rfl (convertDamageConstraints_contains constraints) (parseAdditions_eq hparsed)
      unfold Model.parseDamageTarget at ht
      split at ht
      · exact .inl ⟨rfl, rfl⟩
      · exact .inr ⟨rfl, rfl⟩
      · cases ht
  | heal target amount =>
      simp only [bind_ok_iff, pure_ok_iff] at h
      obtain ⟨-, -, t, ht, rfl⟩ := h
      unfold Model.parseHealTarget at ht
      split at ht <;> cases ht
      · exact .healSource (.inl rfl)
      · exact .healSource (.inr rfl)
      · exact .healSelected (.inl rfl)
      · exact .healSelected (.inr rfl)
  | moveSummon target destination =>
      simp only [guard_ok_iff, pure_ok_iff] at h
      obtain ⟨⟨rfl, rfl, -⟩, rfl⟩ := h
      cases destination
      exact .moveSummon
  | swapPositions target =>
      simp only at h
      split at h <;> cases h
      · exact .swapOwn
      · exact .swapOpposing
  | blockResponses condition response =>
      simp only [guard_ok_iff, pure_ok_iff] at h
      obtain ⟨⟨rfl, -⟩, rfl⟩ := h
      cases response
      simp only [convertEffect, convertCondition_eq]
      exact .blockResponses
  | returnSpellFromDiscard =>
      simp only [guard_ok_iff, pure_ok_iff] at h
      obtain ⟨rfl, rfl⟩ := h
      exact .returnSpellFromDiscard
  | lookAtPrizes =>
      simp only [guard_ok_iff, pure_ok_iff] at h
      obtain ⟨rfl, rfl⟩ := h
      exact .lookAtPrizes
  | drawCards amount =>
      simp only [guard_ok_iff, bind_ok_iff, pure_ok_iff] at h
      obtain ⟨hcontext, -, -, rfl⟩ := h
      exact .drawCards hcontext
  | returnSpellToDeckTop =>
      simp only [guard_ok_iff, pure_ok_iff] at h
      obtain ⟨rfl, rfl⟩ := h
      exact .returnSpellToDeckTop
  | produceMana target =>
      simp only at h
      split at h <;> cases h
      · exact .produceSelected
      · exact .produceSource
  | cannotBeMovedByOpponent target duration =>
      simp only [guard_ok_iff, pure_ok_iff] at h
      obtain ⟨⟨rfl, rfl, -⟩, rfl⟩ := h
      cases duration
      exact .cannotBeMoved
  | readySummon target =>
      simp only [guard_ok_iff, pure_ok_iff] at h
      obtain ⟨⟨rfl, rfl⟩, rfl⟩ := h
      exact .readySummon

theorem parseEffects_prints {raw : List Dto.Effect} {effects : List Model.Effect}
    (h : Model.parseEffects raw context path = .ok effects) :
    List.Forall₂ (Dto.Effect.Prints context) raw (effects.map convertEffect) := by
  unfold Model.parseEffects at h
  rw [refuse_ok_iff] at h
  rw [List.forall₂_map_right_iff]
  exact forall₂_of_collect h.2 parseEffect_prints

theorem convertModifier_prints {raw : Dto.Modifier} {m : Modifier}
    (h : convertModifier raw path = .ok m) : raw.Prints m := by
  unfold convertModifier at h
  cases raw with
  | opposingRetreatCost amount =>
      simp only [guard_ok_iff] at h
      obtain ⟨hfits, heq⟩ := h
      cases heq
      refine .opposingRetreatCost ?_
      have hle : amount.toNat ≤ 2147483647 := by simpa [Model.fitsI32] using hfits
      exact Int32.toInt_ofNat_of_lt (by omega)
  | incomingAttackDamageReduction amount =>
      cases h
      exact .incomingAttackDamageReduction

/-! ## Abilities -/

/-- The entity of an ability, from what it was authored with. -/
def abilityEntity (id : EntityId) (ability : Dto.Ability) (effects : List Model.Effect) : Entity :=
  .mk id (abilityComponents ability.name ability.cost effects ++
    (ability.event.map (fun ev => Component.event (convertTriggerEvent ev))).toList ++
      if ability.response = some .respondable then [.respondable] else [])

/-- The reads of an ability's entity, part by part. -/
theorem abilityEntity_all {α : Type} (field : ComponentField α) (id : EntityId)
    (ability : Dto.Ability) (effects : List Model.Effect) :
    (abilityEntity id ability effects).all field =
      (if ability.name = "" then [] else (field.extract (.name ability.name)).toList) ++
        (ability.cost.bind (fun c => field.extract (.cost (symbolCounts c)))).toList ++
        effects.filterMap (fun effect => field.extract (.effect (convertEffect effect))) ++
        (ability.event.bind (fun ev => field.extract (.event ev.core))).toList ++
        (if ability.response = some .respondable then (field.extract .respondable).toList else []) := by
  have hevent : ∀ ev, convertTriggerEvent ev = ev.core := fun ev => by cases ev <;> rfl
  unfold abilityEntity abilityComponents effectComponents
  simp only [Entity.all, Entity.components, List.filterMap_append, List.filterMap_map,
    filterMap_toList, Option.bind_map, Function.comp_def, String.isEmpty_iff, hevent,
    convertCost_eq, apply_ite (List.filterMap field.extract), List.filterMap_nil,
    filterMap_one]

/-- Every read of an ability's entity. -/
theorem abilityEntity_prints (id : EntityId) {ability : Dto.Ability} {effects : List Model.Effect}
    (heffects : List.Forall₂ (Dto.Effect.Prints context) ability.effects
      (effects.map convertEffect)) : ability.Prints context (abilityEntity id ability effects) := by
  constructor
  case effects =>
    refine Entity.readsLike_of_all ?_
    simpa [abilityEntity_all, ComponentField.effectLeaf] using heffects
  all_goals
    refine Entity.reads_of_all ?_
    rw [abilityEntity_all]
  case name => simp [ComponentField.name]
  case cost => cases ability.cost <;> simp [ComponentField.cost]
  case event => cases ability.event <;> simp [ComponentField.triggerEvent]
  case respondable => simp [ComponentField.respondable]
  all_goals
    simp [ComponentField.accountingId, ComponentField.life, ComponentField.retreatCost,
      ComponentField.form, ComponentField.manaTypes, ComponentField.tags, ComponentField.skill,
      ComponentField.attack, ComponentField.trigger, ComponentField.modifier,
      ComponentField.spellTiming, ComponentField.persistent]

/-- A component that prints an ability. -/
inductive Dto.Ability.Becomes (ability : Dto.Ability) : Component → Prop
  | attack {e : Entity} (hk : ability.kind = .attack) (he : ability.Prints .attack e) :
      Becomes ability (.attack e)
  | skill {e : Entity} (hk : ability.kind = .skill) (he : ability.Prints .skill e) :
      Becomes ability (.skill e)
  | trigger {e : Entity} (hk : ability.kind = .trigger) (he : ability.Prints .trigger e) :
      Becomes ability (.trigger e)
  | passive {raw : Dto.Modifier} {m : Summoners.Modifier} (hk : ability.kind = .passive)
      (hm : ability.modifier = some raw) (hp : raw.Prints m) : Becomes ability (.passive m)

/-- What an ability parses and converts into prints it. -/
theorem parseAbility_becomes {raw : Dto.Ability} {code : Model.StableCode} {ability : Model.Ability}
    {id : EntityId} {path' : String} {c : Component}
    (hparse : Model.parseAbility raw code path = .ok ability)
    (hconvert : convertAbilityKind id ability path' = .ok c) : raw.Becomes c := by
  simp only [Model.parseAbility, bind_ok_iff, pure_ok_iff] at hparse
  obtain ⟨kind, hkind, rfl⟩ := hparse
  unfold Model.parseAbilityKind at hkind
  split at hkind
  · rename_i hk
    simp only [bind_ok_iff, pure_ok_iff, Model.required_ok_iff, Model.forbidOption_ok_iff] at hkind
    obtain ⟨-, hevent, -, hresponse, -, -, cost, hcost, effects, heffects, rfl⟩ := hkind
    cases hconvert
    refine .attack hk ?_
    have he := abilityEntity_prints id (parseEffects_prints heffects)
    simpa [abilityEntity, hevent, hresponse, hcost] using he
  · rename_i hk
    simp only [bind_ok_iff, pure_ok_iff, Model.required_ok_iff, Model.forbidOption_ok_iff] at hkind
    obtain ⟨-, hevent, -, hresponse, -, -, cost, hcost, effects, heffects, rfl⟩ := hkind
    cases hconvert
    refine .skill hk ?_
    have he := abilityEntity_prints id (parseEffects_prints heffects)
    simpa [abilityEntity, hevent, hresponse, hcost] using he
  · rename_i hk
    simp only [bind_ok_iff, pure_ok_iff, Model.required_ok_iff, Model.forbidOption_ok_iff] at hkind
    obtain ⟨-, -, -, -, -, -, -, -, modifier, hmodifier, -, -, rfl⟩ := hkind
    simp only [convertAbilityKind, bind_ok_iff, pure_ok_iff] at hconvert
    obtain ⟨m, hm, rfl⟩ := hconvert
    exact .passive hk hmodifier (convertModifier_prints hm)
  · rename_i hk
    simp only [bind_ok_iff, pure_ok_iff, Model.required_ok_iff, Model.forbidOption_ok_iff] at hkind
    obtain ⟨-, hcost, -, -, event, hevent, response, hresponse, effects, heffects, rfl⟩ := hkind
    cases hconvert
    refine .trigger hk ?_
    have he := abilityEntity_prints id (parseEffects_prints heffects)
    simpa [abilityEntity, hevent, hresponse, hcost] using he

/-- The abilities of a Summon, parsed and converted. -/
theorem abilities_become {newV5 : Vector UInt8 16 → String → String} {raw : List Dto.Ability}
    {abilities : List Model.Ability} {setCode cardCode : Model.StableCode} {cardIndex : ℕ}
    {registry registry' : IdentityRegistry} {converted : List Component}
    (hparse : Model.parseAbilities raw path = .ok abilities)
    (hconvert : collectWith (convertAbility newV5 setCode cardCode cardIndex) 0 registry abilities =
      .ok (registry', converted)) : List.Forall₂ Dto.Ability.Becomes raw converted := by
  simp only [Model.parseAbilities, refuse_ok_iff, bind_ok_iff, pure_ok_iff] at hparse
  obtain ⟨-, ⟨seen, parsed⟩, hparsed, rfl⟩ := hparse
  have hfirst : List.Forall₂ (fun raw ability => ∃ code path,
      Model.parseAbility raw code path = .ok ability) raw parsed := by
    refine forall₂_of_collectWith hparsed (fun hentry => ?_)
    simp only [Model.parseAbilityEntry, bind_ok_iff, pure_ok_iff] at hentry
    obtain ⟨code, -, seen, -, ability, hability, heq⟩ := hentry
    cases heq
    exact ⟨_, _, hability⟩
  have hsecond : List.Forall₂ (fun ability c => ∃ id path,
      convertAbilityKind id ability path = .ok c) parsed converted := by
    refine forall₂_of_collectWith hconvert (fun hentry => ?_)
    simp only [convertAbility, bind_ok_iff, pure_ok_iff] at hentry
    obtain ⟨id, -, seen, -, c, hc, heq⟩ := hentry
    cases heq
    exact ⟨_, _, hc⟩
  refine forall₂_comp ?_ hfirst hsecond
  rintro raw ability c ⟨code, path, hability⟩ ⟨id, path', hc⟩
  exact parseAbility_becomes hability hc

/-- The reads of one kind of ability. -/
theorem reads_become {α β : Type} {field : ComponentField α} {R : β → α → Prop}
    {entry : Dto.Ability → Option β} {raw : List Dto.Ability} {cs : List Component}
    (h : List.Forall₂ Dto.Ability.Becomes raw cs)
    (hentry : ∀ {a c}, Dto.Ability.Becomes a c →
      Option.Rel R (entry a) (field.extract c)) :
    List.Forall₂ R (raw.filterMap entry) (cs.filterMap field.extract) := by
  induction h with
  | nil => exact .nil
  | @cons a c raw cs hac _ ih =>
      have hrel := hentry hac
      rw [List.filterMap_cons, List.filterMap_cons]
      generalize entry a = o at hrel
      generalize field.extract c = o' at hrel
      cases hrel with
      | none => exact ih
      | some hR => exact .cons hR ih

/-- The reads of the components a Summon's abilities come to. -/
structure AbilityReads (raw : List Dto.Ability) (cs : List Component) : Prop where
  attack : List.Forall₂ (Dto.Ability.Prints .attack)
    (raw.filter (fun ability => ability.kind = .attack)) (cs.filterMap ComponentField.attack.extract)
  skills : List.Forall₂ (Dto.Ability.Prints .skill)
    (raw.filter (fun ability => ability.kind = .skill)) (cs.filterMap ComponentField.skill.extract)
  triggers : List.Forall₂ (Dto.Ability.Prints .trigger)
    (raw.filter (fun ability => ability.kind = .trigger))
    (cs.filterMap ComponentField.trigger.extract)
  modifiers : List.Forall₂ Dto.Modifier.Prints
    ((raw.filter (fun ability => ability.kind = .passive)).filterMap Dto.Ability.modifier)
    (cs.filterMap ComponentField.modifier.extract)

theorem abilityReads_of_become {raw : List Dto.Ability} {cs : List Component}
    (h : List.Forall₂ Dto.Ability.Becomes raw cs) : AbilityReads raw cs := by
  have hguard : ∀ kind : Dto.AbilityKind, raw.filter (fun ability => ability.kind = kind) =
      raw.filterMap (fun ability => if ability.kind = kind then some ability else none) := by
    intro kind
    rw [← List.filterMap_eq_filter]
    simp [Option.guard]
  constructor
  · rw [hguard]
    refine reads_become h (fun hac => ?_)
    cases hac with
    | attack hk he => simpa [hk, ComponentField.attack] using he
    | skill hk _ => simp [hk, ComponentField.attack]
    | trigger hk _ => simp [hk, ComponentField.attack]
    | passive hk _ _ => simp [hk, ComponentField.attack]
  · rw [hguard]
    refine reads_become h (fun hac => ?_)
    cases hac with
    | attack hk _ => simp [hk, ComponentField.skill]
    | skill hk he => simpa [hk, ComponentField.skill] using he
    | trigger hk _ => simp [hk, ComponentField.skill]
    | passive hk _ _ => simp [hk, ComponentField.skill]
  · rw [hguard]
    refine reads_become h (fun hac => ?_)
    cases hac with
    | attack hk _ => simp [hk, ComponentField.trigger]
    | skill hk _ => simp [hk, ComponentField.trigger]
    | trigger hk he => simpa [hk, ComponentField.trigger] using he
    | passive hk _ _ => simp [hk, ComponentField.trigger]
  · rw [List.filterMap_filter]
    refine reads_become h (fun hac => ?_)
    cases hac with
    | attack hk _ => simp [hk, ComponentField.modifier]
    | skill hk _ => simp [hk, ComponentField.modifier]
    | trigger hk _ => simp [hk, ComponentField.modifier]
    | passive hk hm hp => simpa [hk, hm, ComponentField.modifier] using hp

/-- No other field reads them. -/
theorem filterMap_become {α : Type} {field : ComponentField α} {raw : List Dto.Ability}
    {cs : List Component} (h : List.Forall₂ Dto.Ability.Becomes raw cs)
    (hability : ∀ e, field.extract (.attack e) = none ∧ field.extract (.skill e) = none ∧
      field.extract (.trigger e) = none) (hpassive : ∀ m, field.extract (.passive m) = none) :
    cs.filterMap field.extract = [] := by
  induction h with
  | nil => rfl
  | cons hac _ ih =>
      cases hac <;> simp [hability, hpassive, ih]

/-! ## Cards -/

theorem convertForm_eq (form : Dto.Form) : convertForm form = form.core := by cases form <;> rfl

theorem convertManaType_eq : convertManaType = Dto.ManaType.core := by
  funext mana
  cases mana <;> rfl

theorem convertTiming_eq (timing : Dto.SpellTiming) : convertTiming timing = timing.core := by
  cases timing <;> rfl

theorem family_of_tags {e : Entity} {kind : Dto.CardKind} (h : e.Reads .tags kind.tags) :
    family e = kind.core := by
  unfold family
  rw [h.get]
  cases kind <;> rfl

theorem summonEntity_all {α : Type} (field : ComponentField α) (id : EntityId) (name : String)
    (form : Form) (life retreat : UInt32) (types : List ManaType) (converted : List Component) :
    (Entity.mk id (.name name ::
      ([.form form, .life life, .produces types, .retreatCost retreat] ++ converted))).all field =
      (field.extract (.name name)).toList ++ (field.extract (.form form)).toList ++
        (field.extract (.life life)).toList ++ (field.extract (.produces types)).toList ++
        (field.extract (.retreatCost retreat)).toList ++ converted.filterMap field.extract := by
  simp only [Entity.all, Entity.components, List.cons_append, List.nil_append,
    filterMap_cons_toList, List.append_assoc]

theorem summon_printed {raw : Dto.Card} {form : Dto.Form} {life retreat : UInt32}
    {types : List Dto.ManaType} {converted : List Component} {id : EntityId}
    (hkind : raw.kind = .summon) (hform : raw.form = some form) (hlife : raw.life = some life)
    (htypes : raw.types = some types) (hretreat : raw.retreat = some retreat)
    (htiming : raw.timing = none) (hcost : raw.cost = none) (heffects : raw.effects = [])
    (hmodifiers : raw.modifiers = [])
    (habilities : List.Forall₂ Dto.Ability.Becomes raw.abilities converted) :
    raw.PrintedOn (.mk id (.name raw.name ::
      ([.form (convertForm form), .life life, .produces (types.map convertManaType),
        .retreatCost retreat] ++ converted))) := by
  obtain ⟨hattack, hskills, htriggers, hpassives⟩ := abilityReads_of_become habilities
  rw [convertForm_eq, convertManaType_eq]
  constructor
  case attack =>
    refine Entity.readsLike_of_all ?_
    rw [summonEntity_all]
    exact hattack
  case skills =>
    refine Entity.readsLike_of_all ?_
    rw [summonEntity_all]
    exact hskills
  case triggers =>
    refine Entity.readsLike_of_all ?_
    rw [summonEntity_all]
    exact htriggers
  case modifiers =>
    refine Entity.readsLike_of_all ?_
    rw [summonEntity_all]
    simpa [Dto.Card.passives, Dto.Card.abilitiesOf, hmodifiers, ComponentField.modifier]
      using hpassives
  case effects =>
    refine Entity.readsLike_of_all ?_
    rw [summonEntity_all, heffects,
      filterMap_become habilities (fun _ => ⟨rfl, rfl, rfl⟩) (fun _ => rfl)]
    exact .nil
  case family =>
    refine family_of_tags (Entity.reads_of_all ?_)
    rw [summonEntity_all, hkind,
      filterMap_become habilities (fun _ => ⟨rfl, rfl, rfl⟩) (fun _ => rfl)]
    rfl
  all_goals
    refine Entity.reads_of_all ?_
    rw [summonEntity_all, filterMap_become habilities (fun _ => ⟨rfl, rfl, rfl⟩) (fun _ => rfl)]
  case tags => rw [hkind]; rfl
  case form => rw [hform]; rfl
  case life => rw [hlife]; rfl
  case manaTypes => rw [htypes]; rfl
  case retreatCost => rw [hretreat]; rfl
  case cost => rw [hcost]; rfl
  case timing => rw [htiming]; rfl
  case persistent => rw [hkind]; rfl
  all_goals rfl

/-- The entity of a Spell or an Enchantment. -/
def castEntity (id : EntityId) (card : Dto.Card) (tags : List String) (timing : Dto.SpellTiming)
    (cost : List Dto.ManaSymbol) (effects : List Model.Effect) (modifiers : List Modifier) : Entity :=
  .mk id (.name card.name ::
    ([.tags tags, .timing (convertTiming timing), .cost (convertCost cost)] ++
      effectComponents effects ++ modifiers.map .passive ++
      if card.kind = .enchantment then [.persistent] else []))

theorem castEntity_all {α : Type} (field : ComponentField α) (id : EntityId) (card : Dto.Card)
    (tags : List String) (timing : Dto.SpellTiming) (cost : List Dto.ManaSymbol)
    (effects : List Model.Effect) (modifiers : List Modifier) :
    (castEntity id card tags timing cost effects modifiers).all field =
      (field.extract (.name card.name)).toList ++ (field.extract (.tags tags)).toList ++
        (field.extract (.timing timing.core)).toList ++
        (field.extract (.cost (symbolCounts cost))).toList ++
        effects.filterMap (fun effect => field.extract (.effect (convertEffect effect))) ++
        modifiers.filterMap (fun m => field.extract (.passive m)) ++
        (if card.kind = .enchantment then (field.extract .persistent).toList else []) := by
  unfold castEntity effectComponents
  simp only [Entity.all, Entity.components, List.filterMap_append, List.filterMap_map,
    Function.comp_def, convertTiming_eq, convertCost_eq, apply_ite (List.filterMap field.extract),
    List.filterMap_nil, filterMap_cons_toList, List.cons_append, List.nil_append, List.append_assoc,
    List.append_nil]

theorem cast_printed (id : EntityId) {raw : Dto.Card} {tags : List String}
    {timing : Dto.SpellTiming} {cost : List Dto.ManaSymbol} {effects : List Model.Effect}
    {modifiers : List Modifier} (htags : raw.kind.tags = [tags]) (hform : raw.form = none)
    (hlife : raw.life = none) (htypes : raw.types = none) (hretreat : raw.retreat = none)
    (htiming : raw.timing = some timing) (hcost : raw.cost = some cost)
    (heffects : List.Forall₂ (Dto.Effect.Prints raw.context) raw.effects
      (effects.map convertEffect)) (habilities : raw.abilities = [])
    (hmodifiers : List.Forall₂ Dto.Modifier.Prints raw.modifiers modifiers) :
    raw.PrintedOn (castEntity id raw tags timing cost effects modifiers) := by
  constructor
  case effects =>
    refine Entity.readsLike_of_all ?_
    simpa [castEntity_all, ComponentField.effectLeaf] using heffects
  case modifiers =>
    refine Entity.readsLike_of_all ?_
    simpa [castEntity_all, ComponentField.modifier, Dto.Card.passives, Dto.Card.abilitiesOf,
      habilities] using hmodifiers
  case attack =>
    refine Entity.readsLike_of_all ?_
    simp [castEntity_all, ComponentField.attack, Dto.Card.abilitiesOf, habilities]
  case skills =>
    refine Entity.readsLike_of_all ?_
    simp [castEntity_all, ComponentField.skill, Dto.Card.abilitiesOf, habilities]
  case triggers =>
    refine Entity.readsLike_of_all ?_
    simp [castEntity_all, ComponentField.trigger, Dto.Card.abilitiesOf, habilities]
  case family =>
    refine family_of_tags (Entity.reads_of_all ?_)
    simp [castEntity_all, ComponentField.tags, htags]
  all_goals
    refine Entity.reads_of_all ?_
    rw [castEntity_all]
  case tags => simp [ComponentField.tags, htags]
  case form => simp [ComponentField.form, hform]
  case life => simp [ComponentField.life, hlife]
  case manaTypes => simp [ComponentField.manaTypes, htypes]
  case retreatCost => simp [ComponentField.retreatCost, hretreat]
  case cost => simp [ComponentField.cost, hcost]
  case timing => simp [ComponentField.spellTiming, htiming]
  case name => simp [ComponentField.name]
  case persistent => simp [ComponentField.persistent]
  case accountingId => simp [ComponentField.accountingId]
  case event => simp [ComponentField.triggerEvent]
  case respondable => simp [ComponentField.respondable]

theorem forbidSummonFields_ok {raw : Dto.Card} {u : Unit}
    (h : Model.forbidSummonFields raw path = .ok u) :
    raw.form = none ∧ raw.life = none ∧ raw.types = none ∧ raw.retreat = none := by
  simp only [Model.forbidSummonFields, bind_ok_iff, Model.forbidOption_ok_iff] at h
  obtain ⟨-, hform, -, hlife, -, htypes, hretreat⟩ := h
  exact ⟨hform, hlife, htypes, hretreat⟩

/-- The passive modifiers of an Enchantment, parsed and converted. -/
theorem passives_print {path' : ℕ → String} {raw modifiers : List Dto.Modifier}
    {passives : List Component} (hparse : Model.parseModifiers raw path = .ok modifiers)
    (hconvert : collect (fun index modifier => do
      let modifier ← convertModifier modifier (path' index)
      pure (Component.passive modifier)) 0 modifiers = .ok passives) :
    ∃ ms : List Modifier, passives = ms.map .passive ∧ List.Forall₂ Dto.Modifier.Prints raw ms := by
  have hsame : List.Forall₂ (fun r m : Dto.Modifier => r = m) raw modifiers := by
    refine forall₂_of_collect hparse (fun hentry => ?_)
    simp only [bind_ok_iff, pure_ok_iff] at hentry
    obtain ⟨-, -, heq⟩ := hentry
    exact heq
  rw [List.forall₂_eq_eq_eq] at hsame
  subst hsame
  have hprinted : List.Forall₂ (fun (r : Dto.Modifier) (c : Component) =>
      ∃ m, c = .passive m ∧ r.Prints m) raw passives := by
    refine forall₂_of_collect hconvert (fun hentry => ?_)
    simp only [bind_ok_iff, pure_ok_iff] at hentry
    obtain ⟨m, hm, rfl⟩ := hentry
    exact ⟨m, rfl, convertModifier_prints hm⟩
  clear hparse hconvert
  induction hprinted with
  | nil => exact ⟨[], rfl, .nil⟩
  | cons hrc _ ih =>
      obtain ⟨m, rfl, hm⟩ := hrc
      obtain ⟨ms, rfl, hms⟩ := ih
      exact ⟨m :: ms, rfl, .cons hm hms⟩

/-- **What a card parses and converts into prints it.** -/
theorem parseCard_printedOn {newV5 : Vector UInt8 16 → String → String} {raw : Dto.Card}
    {setCode code : Model.StableCode} {card : Model.Card} {id : EntityId} {cardIndex : ℕ}
    {registry registry' : IdentityRegistry} {e : Entity}
    (hparse : Model.parseCard raw code path = .ok card)
    (hconvert : convertCard newV5 setCode card id cardIndex registry = .ok (registry', e)) :
    raw.PrintedOn e := by
  simp only [Model.parseCard, bind_ok_iff, pure_ok_iff] at hparse
  obtain ⟨-, -, kind, hkind, rfl⟩ := hparse
  simp only [convertCard, bind_ok_iff, pure_ok_iff] at hconvert
  obtain ⟨⟨registry'', components⟩, hcomponents, heq⟩ := hconvert
  cases heq
  unfold Model.parseCardKind at hkind
  split at hkind
  · rename_i hk
    simp only [Model.parseSummon, bind_ok_iff, pure_ok_iff, Model.required_ok_iff,
      Model.forbidOption_ok_iff, Model.forbidList_ok_iff, refuse_ok_iff] at hkind
    obtain ⟨-, htiming, -, -, -, hcost, -, heffects, -, hmodifiers, form, hform, life, hlife, -, -,
      types, htypes, types', htypes', retreat, hretreat, abilities, habilities, -, rfl⟩ := hkind
    simp only [Model.parseManaTypes, refuse_ok_iff, bind_ok_iff, pure_ok_iff] at htypes'
    obtain ⟨-, -, -, rfl⟩ := htypes'
    simp only [convertCardKind, bind_ok_iff, pure_ok_iff] at hcomponents
    obtain ⟨⟨seen, converted⟩, hconverted, heq⟩ := hcomponents
    cases heq
    exact summon_printed hk hform hlife htypes hretreat htiming hcost heffects hmodifiers
      (abilities_become habilities hconverted)
  · rename_i hk
    simp only [Model.parseSpell, bind_ok_iff, pure_ok_iff, Model.required_ok_iff,
      Model.forbidList_ok_iff, refuse_ok_iff] at hkind
    obtain ⟨_, hfields, -, habilities, -, hmodifiers, timing, htiming, persistence, -, -, cost, hcost,
      effects, heffects, rfl⟩ := hkind
    obtain ⟨hform, hlife, htypes, hretreat⟩ := forbidSummonFields_ok hfields
    cases hcomponents
    have hprinted : List.Forall₂ (Dto.Effect.Prints raw.context) raw.effects
        (effects.map convertEffect) := by
      simp only [Dto.Card.context, hk, htiming]
      cases timing <;> exact parseEffects_prints heffects
    have he := cast_printed id (by rw [hk]; rfl) hform hlife htypes hretreat htiming hcost
      hprinted habilities (by rw [hmodifiers]; exact .nil)
    simpa [castEntity, hk] using he
  · rename_i hk
    simp only [Model.parseEnchantment, bind_ok_iff, pure_ok_iff, Model.required_ok_iff,
      Model.forbidList_ok_iff, refuse_ok_iff, not_or, not_not] at hkind
    obtain ⟨_, hfields, -, habilities, timing, htiming, persistence, -, ⟨rfl, -⟩, cost, hcost, effects,
      heffects, modifiers, hmodifiers, rfl⟩ := hkind
    obtain ⟨hform, hlife, htypes, hretreat⟩ := forbidSummonFields_ok hfields
    simp only [convertCardKind, bind_ok_iff, pure_ok_iff] at hcomponents
    obtain ⟨passives, hpassives, heq⟩ := hcomponents
    cases heq
    have hprinted : List.Forall₂ (Dto.Effect.Prints raw.context) raw.effects
        (effects.map convertEffect) := by
      simp only [Dto.Card.context, hk]
      exact parseEffects_prints heffects
    obtain ⟨ms, rfl, hms⟩ := passives_print hmodifiers hpassives
    have he := cast_printed id (by rw [hk]; rfl) hform hlife htypes hretreat htiming hcost
      hprinted habilities hms
    simpa [castEntity, hk, convertTiming] using he

/-- A card that parses states its Life if it states a Form. -/
theorem parseCard_statistics {raw : Dto.Card} {code : Model.StableCode} {card : Model.Card}
    (h : Model.parseCard raw code path = .ok card) (hform : raw.form.isSome = true) :
    raw.life.isSome = true := by
  simp only [Model.parseCard, bind_ok_iff, pure_ok_iff] at h
  obtain ⟨-, -, kind, hkind, -⟩ := h
  unfold Model.parseCardKind at hkind
  split at hkind
  · simp only [Model.parseSummon, bind_ok_iff, Model.required_ok_iff] at hkind
    obtain ⟨-, -, -, -, -, -, -, -, -, -, form, -, life, hlife, -⟩ := hkind
    rw [hlife]
    rfl
  · simp only [Model.parseSpell, bind_ok_iff] at hkind
    obtain ⟨_, hfields, -⟩ := hkind
    rw [(forbidSummonFields_ok hfields).1] at hform
    cases hform
  · simp only [Model.parseEnchantment, bind_ok_iff] at hkind
    obtain ⟨_, hfields, -⟩ := hkind
    rw [(forbidSummonFields_ok hfields).1] at hform
    cases hform

end

end Summoners
