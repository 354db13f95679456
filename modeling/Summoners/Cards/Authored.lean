import Summoners.Cards.Convert

/-! # What a loaded card set prints

`admits` lists the leaves each context lets through; `Authored` is what the engine can rely on: every
ability prints leaves of its own context only, and every card with a Form prints a Mana Type.
`authored_of_load` says that a set the loader accepts is authored.
-/

namespace Summoners
set_option autoImplicit false

open Checked Summoners.Convert

/-- The leaves a context admits. -/
def Model.EffectContext.admits : Model.EffectContext → EffectLeaf → Bool
  | .attack, .dealDamage _ | .attack, .blockResponses _ _ => true
  | .skill, .heal _ .source | .skill, .moveSummon | .skill, .swapPositions
  | .skill, .swapOpposingPositions | .skill, .lookAtPrizes | .skill, .drawCards _
  | .skill, .returnSpellToDeckTop | .skill, .produceMana .selected
  | .skill, .cannotBeMovedByOpponent .source => true
  | .trigger, .heal _ .source | .trigger, .returnSpellFromDiscard
  | .trigger, .produceMana .source => true
  | .attackSpell, .dealDamage _ => true
  | .supportSpell, .heal _ .selected | .supportSpell, .drawCards _
  | .supportSpell, .readySummon => true
  | .enchantment, .heal _ .selected => true
  | _, _ => false

/-- A leaf some Spell or Enchantment may print. -/
def castable (leaf : EffectLeaf) : Prop :=
  Model.EffectContext.attackSpell.admits leaf = true ∨
    Model.EffectContext.supportSpell.admits leaf = true ∨
      Model.EffectContext.enchantment.admits leaf = true

/-- Every leaf of an ability is admitted in its context. -/
def Entity.PrintsIn (context : Model.EffectContext) (e : Entity) : Prop :=
  ∀ leaf ∈ e.all .effectLeaf, context.admits leaf = true

def Component.Authored : Component → Prop
  | .attack ability => ability.PrintsIn .attack
  | .skill ability => ability.PrintsIn .skill
  | .trigger ability => ability.PrintsIn .trigger
  | .effect leaf => castable leaf
  | .produces types => types ≠ []
  | _ => True

structure Entity.Authored (e : Entity) : Prop where
  components : ∀ c ∈ e.components, c.Authored
  types : (e.get .form).isSome = true → (e.get .manaTypes).isSome = true

def CardSet.Authored (cards : CardSet) : Prop := ∀ e ∈ cards.entities, e.Authored

/-! ## Reads of an authored card -/

section
variable {e : Entity} {α : Type} {field : ComponentField α} {value : α}

theorem Entity.mem_all (h : value ∈ e.all field) : ∃ c ∈ e.components, field.extract c = some value :=
  List.mem_filterMap.mp h

theorem Entity.mem_of_get (h : e.get field = some value) :
    ∃ c ∈ e.components, field.extract c = some value := by
  obtain ⟨c, hc, hx⟩ := List.exists_of_findSome?_eq_some h
  exact ⟨c, hc, hx⟩

theorem Entity.Authored.trigger (h : e.Authored) {t : Entity} (ht : t ∈ e.all .trigger) :
    t.PrintsIn .trigger := by
  obtain ⟨c, hc, hx⟩ := Entity.mem_all ht
  have hauthored := h.components c hc
  cases c <;> cases hx
  exact hauthored

theorem Entity.Authored.skill (h : e.Authored) {k : Entity} (hk : k ∈ e.all .skill) :
    k.PrintsIn .skill := by
  obtain ⟨c, hc, hx⟩ := Entity.mem_all hk
  have hauthored := h.components c hc
  cases c <;> cases hx
  exact hauthored

theorem Entity.Authored.attack (h : e.Authored) {a : Entity} (ha : e.get .attack = some a) :
    a.PrintsIn .attack := by
  obtain ⟨c, hc, hx⟩ := Entity.mem_of_get ha
  have hauthored := h.components c hc
  cases c <;> cases hx
  exact hauthored

theorem Entity.Authored.effect (h : e.Authored) {leaf : EffectLeaf}
    (hleaf : leaf ∈ e.all .effectLeaf) : castable leaf := by
  obtain ⟨c, hc, hx⟩ := Entity.mem_all hleaf
  have hauthored := h.components c hc
  cases c <;> cases hx
  exact hauthored

theorem Entity.Authored.manaTypes (h : e.Authored) (hform : (e.get .form).isSome = true) :
    (e.get .manaTypes).getD [] ≠ [] := by
  obtain ⟨types, htypes⟩ := Option.isSome_iff_exists.mp (h.types hform)
  obtain ⟨c, hc, hx⟩ := Entity.mem_of_get htypes
  have hauthored := h.components c hc
  rw [htypes, Option.getD_some]
  cases c <;> cases hx
  exact hauthored

end

/-! ## Parsing -/

section
variable {context : Model.EffectContext} {path : String}

theorem parseDamageTarget_admits {target : Dto.Target} {t : Model.DamageTarget}
    (h : Model.parseDamageTarget context target path = .ok t) (effect : DamageEffect) :
    context.admits (.dealDamage effect) = true := by
  unfold Model.parseDamageTarget at h
  split at h
  · rfl
  · rfl
  · cases h

theorem parseHealTarget_admits {target : Dto.Target} {t : Model.OwnTarget}
    (h : Model.parseHealTarget context target path = .ok t) (amount : UInt32) :
    context.admits (.heal amount (convertOwnTarget t)) = true := by
  unfold Model.parseHealTarget at h
  split at h <;> cases h <;> rfl

/-- **An effect that parses is admitted where it stands.** -/
theorem parseEffect_admits {raw : Dto.Effect} {effect : Model.Effect}
    (h : Model.parseEffect raw context path = .ok effect) :
    context.admits (convertEffect effect) = true := by
  unfold Model.parseEffect at h
  rw [bind_ok_iff] at h
  obtain ⟨-, -, h⟩ := h
  cases raw with
  | damage target base constraints additions =>
      simp only [bind_ok_iff, pure_ok_iff] at h
      obtain ⟨-, -, t, ht, -, -, parsed, -, rfl⟩ := h
      exact parseDamageTarget_admits ht _
  | heal target amount =>
      simp only [bind_ok_iff, pure_ok_iff] at h
      obtain ⟨-, -, t, ht, rfl⟩ := h
      exact parseHealTarget_admits ht amount
  | moveSummon target destination =>
      simp only [guard_ok_iff, pure_ok_iff] at h
      obtain ⟨⟨rfl, -⟩, rfl⟩ := h
      rfl
  | swapPositions target =>
      simp only at h
      split at h <;> cases h <;> rfl
  | blockResponses condition response =>
      simp only [guard_ok_iff, pure_ok_iff] at h
      obtain ⟨⟨rfl, -⟩, rfl⟩ := h
      rfl
  | returnSpellFromDiscard =>
      simp only [guard_ok_iff, pure_ok_iff] at h
      obtain ⟨rfl, rfl⟩ := h
      rfl
  | lookAtPrizes =>
      simp only [guard_ok_iff, pure_ok_iff] at h
      obtain ⟨rfl, rfl⟩ := h
      rfl
  | drawCards amount =>
      simp only [guard_ok_iff, bind_ok_iff, pure_ok_iff] at h
      obtain ⟨hcontext, -, -, rfl⟩ := h
      rcases hcontext with rfl | rfl <;> rfl
  | returnSpellToDeckTop =>
      simp only [guard_ok_iff, pure_ok_iff] at h
      obtain ⟨rfl, rfl⟩ := h
      rfl
  | produceMana target =>
      simp only at h
      split at h <;> cases h <;> rfl
  | cannotBeMovedByOpponent target duration =>
      simp only [guard_ok_iff, pure_ok_iff] at h
      obtain ⟨⟨rfl, -⟩, rfl⟩ := h
      rfl
  | readySummon target =>
      simp only [guard_ok_iff, pure_ok_iff] at h
      obtain ⟨⟨rfl, -⟩, rfl⟩ := h
      rfl

theorem parseEffects_admits {raw : List Dto.Effect} {effects : List Model.Effect}
    (h : Model.parseEffects raw context path = .ok effects) :
    ∀ effect ∈ effects, context.admits (convertEffect effect) = true := by
  unfold Model.parseEffects at h
  rw [refuse_ok_iff] at h
  exact of_collect h.2 (fun _ he => parseEffect_admits he)

/-! ## Abilities -/

/-- The model's abilities print leaves of their own context. -/
def Model.AbilityKind.Admitted : Model.AbilityKind → Prop
  | .attack _ effects =>
      ∀ effect ∈ effects, Model.EffectContext.attack.admits (convertEffect effect) = true
  | .skill _ effects =>
      ∀ effect ∈ effects, Model.EffectContext.skill.admits (convertEffect effect) = true
  | .passive _ => True
  | .trigger _ _ effects =>
      ∀ effect ∈ effects, Model.EffectContext.trigger.admits (convertEffect effect) = true

theorem parseAbilityKind_admitted {raw : Dto.Ability} {kind : Model.AbilityKind}
    (h : Model.parseAbilityKind raw path = .ok kind) : kind.Admitted := by
  unfold Model.parseAbilityKind at h
  split at h
  · simp only [bind_ok_iff, pure_ok_iff] at h
    obtain ⟨-, -, -, -, -, -, cost, -, effects, heffects, rfl⟩ := h
    exact parseEffects_admits heffects
  · simp only [bind_ok_iff, pure_ok_iff] at h
    obtain ⟨-, -, -, -, -, -, cost, -, effects, heffects, rfl⟩ := h
    exact parseEffects_admits heffects
  · simp only [bind_ok_iff, pure_ok_iff] at h
    obtain ⟨-, -, -, -, -, -, -, -, modifier, -, -, -, rfl⟩ := h
    trivial
  · simp only [bind_ok_iff, pure_ok_iff] at h
    obtain ⟨-, -, -, -, event, -, response, -, effects, heffects, rfl⟩ := h
    exact parseEffects_admits heffects

theorem parseAbilities_admitted {raw : List Dto.Ability} {abilities : List Model.Ability}
    (h : Model.parseAbilities raw path = .ok abilities) :
    ∀ ability ∈ abilities, ability.kind.Admitted := by
  unfold Model.parseAbilities at h
  simp only [refuse_ok_iff, bind_ok_iff, pure_ok_iff] at h
  obtain ⟨-, ⟨seen, parsed⟩, hparsed, rfl⟩ := h
  refine of_collectWith (P := fun ability : Model.Ability => ability.kind.Admitted) hparsed ?_
  intro index seen raw seen' ability _ hentry
  simp only [Model.parseAbilityEntry, Model.parseAbility, bind_ok_iff, pure_ok_iff] at hentry
  obtain ⟨code, -, seen'', -, ability', ⟨kind, hkind, rfl⟩, heq⟩ := hentry
  cases heq
  exact parseAbilityKind_admitted hkind

/-! ## Cards -/

/-- The model's cards print leaves of their own context, and a Summon prints a Mana Type. -/
def Model.CardKind.Admitted : Model.CardKind → Prop
  | .summon _ _ types _ abilities => types ≠ [] ∧ ∀ ability ∈ abilities, ability.kind.Admitted
  | .spell _ _ effects | .enchantment _ effects _ =>
      ∀ effect ∈ effects, castable (convertEffect effect)

theorem parseManaTypes_ne_nil {raw types : List Dto.ManaType}
    (h : Model.parseManaTypes raw path = .ok types) : types ≠ [] := by
  unfold Model.parseManaTypes at h
  simp only [refuse_ok_iff, bind_ok_iff, pure_ok_iff] at h
  obtain ⟨hne, -, -, rfl⟩ := h
  intro hnil
  exact hne (by rw [hnil]; rfl)

theorem parseSummon_admitted {raw : Dto.Card} {kind : Model.CardKind}
    (h : Model.parseSummon raw path = .ok kind) : kind.Admitted := by
  unfold Model.parseSummon at h
  simp only [bind_ok_iff, refuse_ok_iff, pure_ok_iff] at h
  obtain ⟨-, -, -, -, -, -, -, -, -, -, form, -, life, -, -, -, raw, -, types, htypes, retreat, -,
    abilities, habilities, -, rfl⟩ := h
  exact ⟨parseManaTypes_ne_nil htypes, parseAbilities_admitted habilities⟩

theorem parseSpell_admitted {raw : Dto.Card} {kind : Model.CardKind}
    (h : Model.parseSpell raw path = .ok kind) : kind.Admitted := by
  unfold Model.parseSpell at h
  simp only [bind_ok_iff, refuse_ok_iff, pure_ok_iff] at h
  obtain ⟨-, -, -, -, -, -, timing, -, persistence, -, -, cost, -, effects, heffects, rfl⟩ := h
  intro effect he
  have hadmits := parseEffects_admits heffects effect he
  cases timing
  · exact .inr (.inl hadmits)
  · exact .inl hadmits

theorem parseEnchantment_admitted {raw : Dto.Card} {kind : Model.CardKind}
    (h : Model.parseEnchantment raw path = .ok kind) : kind.Admitted := by
  unfold Model.parseEnchantment at h
  simp only [bind_ok_iff, refuse_ok_iff, pure_ok_iff] at h
  obtain ⟨-, -, -, -, timing, -, persistence, -, -, cost, -, effects, heffects, modifiers, -, rfl⟩ := h
  intro effect he
  exact .inr (.inr (parseEffects_admits heffects effect he))

theorem parseCard_admitted {raw : Dto.Card} {code : Model.StableCode} {card : Model.Card}
    (h : Model.parseCard raw code path = .ok card) : card.kind.Admitted := by
  unfold Model.parseCard at h
  simp only [bind_ok_iff, pure_ok_iff] at h
  obtain ⟨-, -, kind, hkind, rfl⟩ := h
  unfold Model.parseCardKind at hkind
  split at hkind
  · exact parseSummon_admitted hkind
  · exact parseSpell_admitted hkind
  · exact parseEnchantment_admitted hkind

theorem parse_admitted {decoded : Dto.Set} {set : Model.Set} (h : Model.parse decoded = .ok set) :
    ∀ card ∈ set.cards, card.kind.Admitted := by
  unfold Model.parse at h
  simp only [refuse_ok_iff, bind_ok_iff, pure_ok_iff] at h
  obtain ⟨-, code, -, -, -, -, -, -, ⟨seen, cards⟩, hcards, rfl⟩ := h
  refine of_collectWith (P := fun card : Model.Card => card.kind.Admitted) hcards ?_
  intro index seen raw seen' card _ hentry
  simp only [Model.parseCardEntry, bind_ok_iff, pure_ok_iff] at hentry
  obtain ⟨code, -, seen'', -, card', hcard, heq⟩ := hentry
  cases heq
  exact parseCard_admitted hcard

end

/-! ## Conversion -/

section
variable {newV5 : Vector UInt8 16 → String → String} {path : String}

theorem extract_effectComponents (effects : List Model.Effect) :
    (effectComponents effects).filterMap ComponentField.effectLeaf.extract =
      effects.map convertEffect := by
  unfold effectComponents
  rw [List.filterMap_map, ← List.filterMap_eq_map]
  rfl

theorem extract_abilityComponents (name : String) (cost : Option (List Dto.ManaSymbol))
    (effects : List Model.Effect) :
    (abilityComponents name cost effects).filterMap ComponentField.effectLeaf.extract =
      effects.map convertEffect := by
  unfold abilityComponents
  rw [List.filterMap_append, List.filterMap_append, extract_effectComponents]
  cases cost <;> split <;> rfl

theorem printsIn_of_effects {context : Model.EffectContext} {effects : List Model.Effect} {e : Entity}
    (he : e.all .effectLeaf = effects.map convertEffect)
    (h : ∀ effect ∈ effects, context.admits (convertEffect effect) = true) :
    e.PrintsIn context := by
  intro leaf hleaf
  rw [he] at hleaf
  obtain ⟨effect, hmem, rfl⟩ := List.mem_map.mp hleaf
  exact h effect hmem

theorem convertAbilityKind_authored {id : EntityId} {ability : Model.Ability} {c : Component}
    (h : convertAbilityKind id ability path = .ok c) (hadmitted : ability.kind.Admitted) :
    c.Authored := by
  unfold convertAbilityKind at h
  split at h
  · rename_i cost effects hkind
    cases h
    rw [hkind] at hadmitted
    exact printsIn_of_effects (extract_abilityComponents _ _ _) hadmitted
  · rename_i cost effects hkind
    cases h
    rw [hkind] at hadmitted
    exact printsIn_of_effects (extract_abilityComponents _ _ _) hadmitted
  · simp only [bind_ok_iff, pure_ok_iff] at h
    obtain ⟨modifier, -, rfl⟩ := h
    trivial
  · rename_i event response effects hkind
    cases h
    rw [hkind] at hadmitted
    refine printsIn_of_effects ?_ hadmitted
    show List.filterMap _ (_ ++ _) = _
    rw [List.filterMap_append, extract_abilityComponents]
    split <;> simp [ComponentField.effectLeaf]

/-- A list of components without a Form. -/
def Formless (components : List Component) : Prop :=
  ∀ c ∈ components, ComponentField.form.extract c = none

theorem Formless.append {front back : List Component} (h : Formless front) (h' : Formless back) :
    Formless (front ++ back) := by
  intro c hc
  rcases List.mem_append.mp hc with hc | hc
  · exact h c hc
  · exact h' c hc

theorem effectComponents_formless (effects : List Model.Effect) :
    Formless (effectComponents effects) := by
  intro c hc
  obtain ⟨effect, -, rfl⟩ := List.mem_map.mp hc
  rfl

/-- What a card's components come to: authored ones, with Mana Types beside a Form. -/
def Prints (components : List Component) : Prop :=
  (∀ c ∈ components, c.Authored) ∧
    (Formless components ∨
      (components.findSome? ComponentField.manaTypes.extract).isSome = true)

theorem convertSummon_prints {setCode : Model.StableCode} {card : Model.Card} {cardIndex : ℕ}
    {registry registry' : IdentityRegistry} {form : Dto.Form} {life retreat : UInt32}
    {types : List Dto.ManaType} {abilities : List Model.Ability} {converted : List Component}
    (h : collectWith (convertAbility newV5 setCode card.code cardIndex) 0 registry abilities =
      .ok (registry', converted))
    (htypes : types ≠ []) (hadmitted : ∀ ability ∈ abilities, ability.kind.Admitted) :
    Prints ([.form (convertForm form), .life life, .produces (types.map convertManaType),
      .retreatCost retreat] ++ converted) := by
  have hconverted : ∀ c ∈ converted, c.Authored := by
    refine of_collectWith h ?_
    intro index registry ability registry' c hmem hc
    simp only [convertAbility, bind_ok_iff, pure_ok_iff] at hc
    obtain ⟨id, -, seen, -, c', hc', heq⟩ := hc
    cases heq
    exact convertAbilityKind_authored hc' (hadmitted ability hmem)
  refine ⟨fun c hc => ?_, .inr rfl⟩
  rcases List.mem_append.mp hc with hc | hc
  · simp only [List.mem_cons, List.not_mem_nil, or_false] at hc
    rcases hc with rfl | rfl | rfl | rfl
    · trivial
    · trivial
    · exact fun hnil => htypes (List.map_eq_nil_iff.mp hnil)
    · trivial
  · exact hconverted c hc

/-- The components a Spell and an Enchantment have in common. -/
theorem convertSpell_prints (tag : String) {timing : SpellTiming} {cost : Cost}
    {effects : List Model.Effect} (h : ∀ effect ∈ effects, castable (convertEffect effect)) :
    (∀ c ∈ [.tags [tag], .timing timing, .cost cost] ++ effectComponents effects,
      Component.Authored c) ∧
      Formless ([.tags [tag], .timing timing, .cost cost] ++ effectComponents effects) := by
  constructor
  · intro c hc
    rcases List.mem_append.mp hc with hc | hc
    · simp only [List.mem_cons, List.not_mem_nil, or_false] at hc
      rcases hc with rfl | rfl | rfl <;> trivial
    · obtain ⟨effect, hmem, rfl⟩ := List.mem_map.mp hc
      exact h effect hmem
  · refine Formless.append (fun c hc => ?_) (effectComponents_formless effects)
    simp only [List.mem_cons, List.not_mem_nil, or_false] at hc
    rcases hc with rfl | rfl | rfl <;> rfl

theorem convertCardKind_prints {setCode : Model.StableCode} {card : Model.Card} {cardIndex : ℕ}
    {registry registry' : IdentityRegistry} {components : List Component}
    (h : convertCardKind newV5 setCode card cardIndex registry = .ok (registry', components))
    (hadmitted : card.kind.Admitted) : Prints components := by
  unfold convertCardKind at h
  split at h
  · rename_i form life types retreat abilities hkind
    rw [hkind] at hadmitted
    simp only [bind_ok_iff, pure_ok_iff] at h
    obtain ⟨⟨seen, converted⟩, hconverted, heq⟩ := h
    cases heq
    exact convertSummon_prints hconverted hadmitted.1 hadmitted.2
  · rename_i timing cost effects hkind
    rw [hkind] at hadmitted
    cases h
    obtain ⟨hcomponents, hformless⟩ := convertSpell_prints "spell" hadmitted
    exact ⟨hcomponents, .inl hformless⟩
  · rename_i cost effects modifiers hkind
    rw [hkind] at hadmitted
    simp only [bind_ok_iff, pure_ok_iff] at h
    obtain ⟨passives, hpassives, heq⟩ := h
    cases heq
    obtain ⟨hcomponents, hformless⟩ := convertSpell_prints "enchantment" hadmitted
    have hpassive : ∀ c ∈ passives, ∃ modifier, c = .passive modifier := by
      refine of_collect hpassives ?_
      intro index modifier c _ hc
      simp only [bind_ok_iff, pure_ok_iff] at hc
      obtain ⟨converted, -, rfl⟩ := hc
      exact ⟨converted, rfl⟩
    refine ⟨fun c hc => ?_, .inl ((hformless.append ?_).append ?_)⟩
    · rcases List.mem_append.mp hc with hc | hc
      · rcases List.mem_append.mp hc with hc | hc
        · exact hcomponents c hc
        · obtain ⟨modifier, rfl⟩ := hpassive c hc
          trivial
      · rw [List.mem_singleton.mp hc]
        trivial
    · intro c hc
      obtain ⟨modifier, rfl⟩ := hpassive c hc
      rfl
    · intro c hc
      rw [List.mem_singleton.mp hc]
      rfl

/-- A card of printed components, behind its name. -/
theorem Prints.authored {components : List Component} (h : Prints components) (id : EntityId)
    (name : String) : (Entity.mk id (.name name :: components)).Authored := by
  refine ⟨fun c hc => ?_, fun hform => ?_⟩
  · rcases List.mem_cons.mp hc with rfl | hc
    · trivial
    · exact h.1 c hc
  · rcases h.2 with hformless | htypes
    · obtain ⟨form, hf⟩ := Option.isSome_iff_exists.mp hform
      obtain ⟨c, hc, hx⟩ := Entity.mem_of_get hf
      rcases List.mem_cons.mp hc with rfl | hc
      · cases hx
      · rw [hformless c hc] at hx
        cases hx
    · exact htypes

/-- **A set the loader accepts is authored.** -/
theorem authored_of_load {decoded : Dto.Set} {loaded : LoadedSet}
    (h : load newV5 decoded = .ok loaded) : loaded.cards.Authored := by
  unfold load at h
  rw [bind_ok_iff] at h
  obtain ⟨set, hparse, hconvert⟩ := h
  have hadmitted := parse_admitted hparse
  simp only [convert, bind_ok_iff, pure_ok_iff] at hconvert
  obtain ⟨setId, -, ⟨⟨registry, cardIds⟩, entities⟩, hentities, rfl⟩ := hconvert
  refine of_collectWith (P := Entity.Authored) hentities ?_
  intro index state card state' e hmem he
  simp only [convertCardEntry, convertCard, bind_ok_iff, pure_ok_iff] at he
  obtain ⟨cardId, -, seen, -, ⟨registry', e'⟩, ⟨⟨registry'', components⟩, hkind, heq⟩, heq'⟩ := he
  cases heq
  cases heq'
  exact (convertCardKind_prints hkind (hadmitted card hmem)).authored _ _

end

end Summoners
