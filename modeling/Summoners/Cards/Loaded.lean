import Mathlib.Data.List.Flatten
import Mathlib.Data.List.Perm.Basic
import Summoners.Cards.Printed
import Summoners.Cards.Specimen

/-! # What a library assembled from authored Sets holds

A Set keeps, beside its entities, the ids it minted for them. `Faithful` relates the two over the
loop that converts the cards; the library's own checks make qualified keys and ids distinct, so that
a lookup by key and then by id finds the entity of the card the key names.
-/

namespace Summoners
set_option autoImplicit false

open Checked Summoners.Convert CardLibrary

/-! ## Codes -/

theorem Model.stableCode_asStr {value path : String} {kind : StableKeyKind} {code : Model.StableCode}
    (h : Model.StableCode.parse value kind path = .ok code) : code.asStr = value := by
  unfold Model.StableCode.parse at h
  split at h
  · cases h
    rfl
  · cases h

theorem Model.parseCard_code {raw : Dto.Card} {code : Model.StableCode} {path : String}
    {card : Model.Card} (h : Model.parseCard raw code path = .ok card) : card.code = code := by
  simp only [Model.parseCard, bind_ok_iff, pure_ok_iff] at h
  obtain ⟨-, -, kind, -, rfl⟩ := h
  rfl

section
variable {newV5 : Vector UInt8 16 → String → String}

/-! ## One Set -/

/-- A document's cards and the entities they are printed on, with the ids the Set keeps of them. -/
structure Faithful (cards : List Dto.Card) (entities : List Entity)
    (cardIds : List (String × EntityId)) (abilityIds : List ((String × String) × EntityId)) :
    Prop where
  printed : List.Forall₂ (fun card e => card.PrintedOn e ∧ (card.code, e.id) ∈ cardIds) cards entities
  statistics : ∀ card ∈ cards, card.form.isSome = true → card.life.isSome = true
  cardIds : entities.map Entity.id = cardIds.map Prod.snd
  abilityIds : (entities.flatMap Entity.abilityIds).Sublist (abilityIds.map Prod.snd)

@[simp] theorem abilityEntities_append (cs cs' : List Component) :
    abilityEntities (cs ++ cs') = abilityEntities cs ++ abilityEntities cs' := by
  simp [abilityEntities]

/-- An ability's component holds at most its entity, with the id minted for it. -/
theorem convertAbilityKind_ids {id : EntityId} {ability : Model.Ability} {path : String}
    {c : Component} (h : convertAbilityKind id ability path = .ok c) :
    ((abilityEntities [c]).map Entity.id).Sublist [id] := by
  unfold convertAbilityKind at h
  split at h
  · cases h
    exact List.Sublist.refl _
  · cases h
    exact List.Sublist.refl _
  · simp only [bind_ok_iff, pure_ok_iff] at h
    obtain ⟨m, -, rfl⟩ := h
    exact List.nil_sublist _
  · cases h
    exact List.Sublist.refl _

/-- The abilities of a card mint the ids of their entities, in the order of the components. -/
theorem convertAbilities_ids {setCode cardCode : Model.StableCode} {cardIndex : ℕ}
    {registry registry' : IdentityRegistry} {abilities : List Model.Ability} {cs : List Component}
    (h : collectWith (convertAbility newV5 setCode cardCode cardIndex) 0 registry abilities =
      .ok (registry', cs)) :
    ∃ minted, registry'.abilityIds = registry.abilityIds ++ minted ∧
      ((abilityEntities cs).map Entity.id).Sublist (minted.map Prod.snd) := by
  refine collectWith_induct (I := fun (r : IdentityRegistry) (_ : List Model.Ability) cs =>
    ∃ minted, r.abilityIds = registry.abilityIds ++ minted ∧
      ((abilityEntities cs).map Entity.id).Sublist (minted.map Prod.snd)) h
      ⟨[], by simp, by simp [abilityEntities]⟩ ?_
  intro index r r' ability c _ produced ⟨minted, hminted, hsub⟩ hc
  simp only [convertAbility, bind_ok_iff, pure_ok_iff] at hc
  obtain ⟨id, -, seen, -, c', hkind, heq⟩ := hc
  cases heq
  refine ⟨minted ++ [((cardCode.asStr, ability.code.asStr), id)], by rw [hminted]; simp, ?_⟩
  rw [abilityEntities_append, List.map_append, List.map_append]
  exact hsub.append (convertAbilityKind_ids hkind)

/-- So does the card: only a Summon has abilities. -/
theorem convertCard_ids {setCode : Model.StableCode} {card : Model.Card} {id : EntityId}
    {cardIndex : ℕ} {registry registry' : IdentityRegistry} {e : Entity}
    (h : convertCard newV5 setCode card id cardIndex registry = .ok (registry', e)) :
    e.id = id ∧ ∃ minted, registry'.abilityIds = registry.abilityIds ++ minted ∧
      e.abilityIds.Sublist (minted.map Prod.snd) := by
  simp only [convertCard, bind_ok_iff, pure_ok_iff] at h
  obtain ⟨⟨r, components⟩, hcomponents, heq⟩ := h
  cases heq
  refine ⟨rfl, ?_⟩
  have hleaves : ∀ effects : List Model.Effect, abilityEntities (effectComponents effects) = [] := by
    intro effects
    refine List.filterMap_eq_nil_iff.mpr (fun c hc => ?_)
    obtain ⟨effect, -, rfl⟩ := List.mem_map.mp hc
    rfl
  unfold convertCardKind at hcomponents
  split at hcomponents
  · simp only [bind_ok_iff, pure_ok_iff] at hcomponents
    obtain ⟨⟨r', cs⟩, hcs, heq⟩ := hcomponents
    cases heq
    obtain ⟨minted, hminted, hsub⟩ := convertAbilities_ids hcs
    exact ⟨minted, hminted, hsub⟩
  · cases hcomponents
    refine ⟨[], by simp, ?_⟩
    show ((abilityEntities (_ ++ _)).map Entity.id).Sublist []
    rw [abilityEntities_append, hleaves]
    exact List.nil_sublist _
  · simp only [bind_ok_iff, pure_ok_iff] at hcomponents
    obtain ⟨passives, hpassives, heq⟩ := hcomponents
    cases heq
    refine ⟨[], by simp, ?_⟩
    have hnone : abilityEntities passives = [] := by
      refine List.filterMap_eq_nil_iff.mpr (of_collect hpassives ?_)
      intro index modifier c _ hc
      simp only [bind_ok_iff, pure_ok_iff] at hc
      obtain ⟨m, -, rfl⟩ := hc
      rfl
    show ((abilityEntities (((_ ++ _) ++ _) ++ _)).map Entity.id).Sublist []
    rw [abilityEntities_append, abilityEntities_append, abilityEntities_append, hleaves, hnone]
    exact List.nil_sublist _

/-- **A Set the loader accepts is faithful to its document.** -/
theorem faithful_of_load {document : Dto.Set} {loaded : LoadedSet}
    (h : load newV5 document = .ok loaded) : loaded.code = document.id ∧
      Faithful document.cards loaded.cards.entities loaded.cardIds loaded.abilityIds := by
  unfold load at h
  rw [bind_ok_iff] at h
  obtain ⟨set, hparse, hconvert⟩ := h
  unfold Model.parse at hparse
  simp only [refuse_ok_iff, bind_ok_iff, pure_ok_iff] at hparse
  obtain ⟨-, code, hcode, -, -, -, -, -, ⟨seen, cards⟩, hcards, rfl⟩ := hparse
  have hparsed : List.Forall₂ (fun raw card => card.code.asStr = raw.code ∧ ∃ code path,
      Model.parseCard raw code path = .ok card) document.cards cards := by
    refine forall₂_of_collectWith hcards (fun hentry => ?_)
    simp only [Model.parseCardEntry, bind_ok_iff, pure_ok_iff] at hentry
    obtain ⟨code, hcode, seen, -, card, hcard, heq⟩ := hentry
    cases heq
    exact ⟨by rw [Model.parseCard_code hcard, Model.stableCode_asStr hcode], _, _, hcard⟩
  simp only [convert, bind_ok_iff, pure_ok_iff] at hconvert
  obtain ⟨setId, -, ⟨⟨registry, cardIds⟩, entities⟩, hentities, rfl⟩ := hconvert
  refine ⟨Model.stableCode_asStr hcode, ?_⟩
  have hinv := collectWith_induct (I := fun state cards entities =>
    List.Forall₂ (fun card e => (∃ id index r r', convertCard newV5 code card id index r =
      .ok (r', e)) ∧ (card.code.asStr, e.id) ∈ state.2) cards entities ∧
      entities.map Entity.id = state.2.map Prod.snd ∧
      (entities.flatMap Entity.abilityIds).Sublist (state.1.abilityIds.map Prod.snd)) hentities
    ⟨.nil, rfl, List.Sublist.refl _⟩ ?_
  · obtain ⟨hprinted, hcardIds, habilityIds⟩ := hinv
    refine ⟨forall₂_comp ?_ hparsed hprinted, fun raw hraw => ?_, hcardIds, habilityIds⟩
    · rintro raw card e ⟨hcode, code', path, hcard⟩ ⟨⟨id, index, r, r', hconverted⟩, hmem⟩
      exact ⟨parseCard_printedOn hcard hconverted, by rw [← hcode]; exact hmem⟩
    · obtain ⟨card, -, -, code', path, hcard⟩ := forall₂_mem_left hparsed hraw
      exact parseCard_statistics hcard
  · intro index state state' card e before produced ⟨hprinted, hcardIds, habilityIds⟩ he
    simp only [convertCardEntry, bind_ok_iff, pure_ok_iff] at he
    obtain ⟨id, -, seen, -, ⟨r, e'⟩, hconverted, heq⟩ := he
    cases heq
    obtain ⟨hid, minted, hminted, hsub⟩ := convertCard_ids hconverted
    have hnew : (card.code.asStr, e'.id) ∈ state.2 ++ [(card.code.asStr, id)] := by simp [hid]
    refine ⟨List.rel_append (hprinted.imp (fun _ _ h => ⟨h.1, List.mem_append_left _ h.2⟩))
      (.cons ⟨⟨_, _, _, _, hconverted⟩, hnew⟩ .nil), by simp [hcardIds, hid], ?_⟩
    rw [hminted, List.map_append, List.flatMap_append]
    exact habilityIds.append (by simpa using hsub)

/-! ## The library's checks -/

/-- A card's id under the key the library indexes it by. -/
def LoadedSet.keyed (set : LoadedSet) (entry : String × EntityId) : String × EntityId :=
  (s!"{set.code}/{entry.1}", entry.2)

/-- Every id a Set keeps. -/
def LoadedSet.ids (set : LoadedSet) : List EntityId :=
  set.id :: set.cardIds.map Prod.snd ++ set.abilityIds.map Prod.snd

/-- A lookup under distinct keys finds what is there. -/
theorem find_of_nodup {α κ : Type} [DecidableEq κ] {key : α → κ} {entries : List α} {a : α}
    (h : (entries.map key).Nodup) (hmem : a ∈ entries) :
    entries.find? (fun r => key r = key a) = some a := by
  induction entries with
  | nil => cases hmem
  | cons entry entries ih =>
      rw [List.map_cons, List.nodup_cons] at h
      rcases List.mem_cons.mp hmem with rfl | hmem
      · simp
      · have hne : ¬key entry = key a := by
          intro heq
          exact h.1 (List.mem_map.mpr ⟨a, hmem, heq.symm⟩)
        rw [List.find?_cons_of_neg (by simpa using hne)]
        exact ih h.2 hmem

/-- The index while it is built: its keys are those of `owners`, none twice, and it holds what has
been entered. -/
structure Indexed (state : List (String × String) × List (String × EntityId))
    (entered : List (String × EntityId)) : Prop where
  keys : state.2.map Prod.fst = state.1.map Prod.fst
  nodup : (state.1.map Prod.fst).Nodup
  entered : ∀ entry ∈ entered, entry ∈ state.2

theorem Indexed.qualifyCard {set : LoadedSet} {entry : String × EntityId}
    {state state' : List (String × String) × List (String × EntityId)}
    {entered : List (String × EntityId)} (h : Indexed state entered)
    (hq : CardLibrary.qualifyCard set state entry = .ok state') :
    Indexed state' (entered ++ [set.keyed entry]) := by
  unfold CardLibrary.qualifyCard at hq
  simp only at hq
  split at hq
  · cases hq
  · rename_i hnone
    cases hq
    refine ⟨by simp [h.keys], List.nodup_cons.mpr ⟨fun hmem => ?_, h.nodup⟩, ?_⟩
    · obtain ⟨r, hr, hkey⟩ := List.mem_map.mp hmem
      exact absurd hkey (by simpa using List.find?_eq_none.mp hnone r hr)
    · intro x hx
      rcases List.mem_append.mp hx with hx | hx
      · exact List.mem_cons_of_mem _ (h.entered x hx)
      · rw [List.mem_singleton.mp hx]
        exact List.mem_cons_self

/-- The index a library keeps: distinct keys, and every card of every Set under its own. -/
theorem qualifiedCards_ok {sets : List LoadedSet} {cards : List (String × EntityId)}
    (h : qualifiedCards sets = .ok cards) : (cards.map Prod.fst).Nodup ∧
      ∀ set ∈ sets, ∀ entry ∈ set.cardIds, set.keyed entry ∈ cards := by
  simp only [qualifiedCards, bind_ok_iff, pure_ok_iff] at h
  obtain ⟨state, hfold, rfl⟩ := h
  have hindexed : Indexed state
      (sets.flatMap (fun set => (inKeyOrder set.cardIds).map set.keyed)) := by
    refine foldlM_induct (I := fun state sets => Indexed state
      (sets.flatMap (fun set => (inKeyOrder set.cardIds).map set.keyed))) hfold
      ⟨rfl, List.nodup_nil, by simp⟩ ?_
    intro state state' set before hbefore hset
    rw [List.flatMap_append, List.flatMap_singleton]
    refine foldlM_induct (I := fun state entries => Indexed state
      (before.flatMap (fun set => (inKeyOrder set.cardIds).map set.keyed) ++
        entries.map set.keyed)) hset ?_ ?_
    · rw [List.map_nil, List.append_nil]
      exact hbefore
    · intro state state' entry entries h hq
      rw [List.map_append, ← List.append_assoc]
      exact h.qualifyCard hq
  refine ⟨by rw [hindexed.keys]; exact hindexed.nodup, fun set hset entry hentry => ?_⟩
  refine hindexed.entered _ (List.mem_flatMap.mpr ⟨set, hset, List.mem_map_of_mem ?_⟩)
  exact (inKeyOrder_perm _).mem_iff.mpr hentry

/-- The index holds the cards of the Sets and nothing else. -/
theorem qualifiedCards_perm {sets : List LoadedSet} {cards : List (String × EntityId)}
    (h : qualifiedCards sets = .ok cards) :
    cards.Perm (sets.flatMap (fun set => set.cardIds.map set.keyed)) := by
  have hentry : ∀ {set : LoadedSet} {entry : String × EntityId}
      {state state' : List (String × String) × List (String × EntityId)},
      CardLibrary.qualifyCard set state entry = .ok state' →
        state'.2 = set.keyed entry :: state.2 := by
    intro set entry state state' hq
    unfold CardLibrary.qualifyCard at hq
    simp only at hq
    split at hq
    · cases hq
    · cases hq
      rfl
  simp only [qualifiedCards, bind_ok_iff, pure_ok_iff] at h
  obtain ⟨state, hfold, rfl⟩ := h
  refine foldlM_induct (I := fun state sets => state.2.Perm
    (sets.flatMap (fun set => set.cardIds.map set.keyed))) hfold .nil ?_
  intro state state' set before hbefore hset
  have hwalked : state'.2.Perm (state.2 ++ (inKeyOrder set.cardIds).map set.keyed) := by
    refine foldlM_induct (I := fun state' entries => state'.2.Perm
      (state.2 ++ entries.map set.keyed)) hset (by simp) ?_
    intro s s' entry entries hperm hq
    rw [hentry hq, List.map_append, ← List.append_assoc]
    exact (hperm.cons _).trans (List.perm_append_singleton _ _).symm
  rw [List.flatMap_append, List.flatMap_singleton]
  exact hwalked.trans (hbefore.append ((inKeyOrder_perm _).map _))

/-- The ids entered so far, none of them twice. -/
structure DistinctIds (ids : List (EntityId × String)) (entered : List EntityId) : Prop where
  perm : (ids.map Prod.fst).Perm entered
  nodup : (ids.map Prod.fst).Nodup

theorem DistinctIds.insertUniqueId {ids ids' : List (EntityId × String)} {entered : List EntityId}
    {id : EntityId} {key : String} (h : DistinctIds ids entered)
    (hi : CardLibrary.insertUniqueId ids id key = .ok ids') : DistinctIds ids' (entered ++ [id]) := by
  unfold CardLibrary.insertUniqueId at hi
  split at hi
  · cases hi
  · rename_i hnone
    cases hi
    refine ⟨(h.perm.cons id).trans (List.perm_append_singleton id entered).symm,
      List.nodup_cons.mpr ⟨fun hmem => ?_, h.nodup⟩⟩
    obtain ⟨r, hr, hid⟩ := List.mem_map.mp hmem
    exact absurd hid (by simpa using List.find?_eq_none.mp hnone r hr)

/-- A loop that enters the ids of a list. -/
theorem DistinctIds.foldlM {α : Type} {ids ids' : List (EntityId × String)} {entered : List EntityId}
    {entries : List α} {id : α → EntityId} {key : α → String} (h : DistinctIds ids entered)
    (hf : entries.foldlM (fun ids a => CardLibrary.insertUniqueId ids (id a) (key a)) ids =
      .ok ids') : DistinctIds ids' (entered ++ entries.map id) := by
  refine foldlM_induct (I := fun ids entries => DistinctIds ids (entered ++ entries.map id)) hf
    (by simpa using h) (fun h hi => ?_)
  simpa using h.insertUniqueId hi

theorem DistinctIds.insertSetIds {ids ids' : List (EntityId × String)} {entered : List EntityId}
    {set : LoadedSet} (h : DistinctIds ids entered) (hi : CardLibrary.insertSetIds ids set = .ok ids') :
    DistinctIds ids' (entered ++ set.ids) := by
  simp only [CardLibrary.insertSetIds, bind_ok_iff] at hi
  obtain ⟨ids₁, h₁, ids₂, h₂, h₃⟩ := hi
  obtain ⟨hperm, hnodup⟩ := ((h.insertUniqueId h₁).foldlM h₂).foldlM h₃
  refine ⟨hperm.trans ?_, hnodup⟩
  have hcards : ((inKeyOrder set.cardIds).map Prod.snd).Perm (set.cardIds.map Prod.snd) :=
    (inKeyOrder_perm _).map _
  have habilities : ((inPairOrder set.abilityIds).map Prod.snd).Perm
      (set.abilityIds.map Prod.snd) := (inPairOrder_perm _).map _
  simpa [LoadedSet.ids] using
    ((hcards.append habilities).cons set.id).append_left entered

/-- All ids the Sets of a library keep are distinct. -/
theorem rejectDuplicateIds_ok {sets : List LoadedSet} {u : Unit}
    (h : rejectDuplicateIds sets = .ok u) : (sets.flatMap LoadedSet.ids).Nodup := by
  simp only [rejectDuplicateIds, bind_ok_iff] at h
  obtain ⟨ids, hfold, -⟩ := h
  have hdistinct : DistinctIds ids (sets.flatMap LoadedSet.ids) := by
    refine foldlM_induct (I := fun ids sets => DistinctIds ids (sets.flatMap LoadedSet.ids)) hfold
      ⟨List.Perm.refl _, List.nodup_nil⟩ (fun h hi => ?_)
    simpa using h.insertSetIds hi
  exact hdistinct.perm.nodup_iff.mp hdistinct.nodup

/-! ## The library -/

theorem fromSets_ok {sets : List LoadedSet} {library : CardLibrary}
    (h : fromSets sets = .ok library) : qualifiedCards sets = .ok library.cards ∧
      (∃ u, rejectDuplicateIds sets = .ok u) ∧
        library.coreCards.entities = sets.flatMap (fun set => set.cards.entities) := by
  simp only [fromSets, bind_ok_iff, pure_ok_iff] at h
  obtain ⟨cards, hcards, u, hu, rfl⟩ := h
  exact ⟨hcards, ⟨u, hu⟩, rfl⟩

/-- No two keys of a library name one card. -/
theorem cardId_injective {sets : List LoadedSet} {library : CardLibrary}
    (hlibrary : fromSets sets = .ok library) {key key' : String} {id : EntityId}
    (h : library.cardId key = some id) (h' : library.cardId key' = some id) : key = key' := by
  obtain ⟨hcards, ⟨u, hu⟩, -⟩ := fromSets_ok hlibrary
  have hids : (library.cards.map Prod.snd).Nodup := by
    rw [((qualifiedCards_perm hcards).map _).nodup_iff, List.map_flatMap]
    refine (rejectDuplicateIds_ok hu).sublist (.flatMap_right sets fun set _ => ?_)
    rw [List.map_map]
    exact (List.sublist_append_left _ _).cons _
  have hentry : ∀ {key : String}, library.cardId key = some id → (key, id) ∈ library.cards := by
    intro key hkey
    obtain ⟨entry, hfound, hid⟩ := Option.map_eq_some_iff.mp hkey
    have hname : entry.1 = key := by simpa using List.find?_some hfound
    rw [← hname, ← hid]
    exact List.mem_of_find?_eq_some hfound
  exact congrArg Prod.fst (List.inj_on_of_nodup_map hids (hentry h) (hentry h') rfl)

/-- The card and ability entities of a library have distinct ids. -/
theorem ids_nodup {sets : List LoadedSet} {library : CardLibrary}
    (hload : ∀ set ∈ sets, ∃ document, load newV5 document = .ok set)
    (hlibrary : fromSets sets = .ok library) :
    (library.coreCards.entities.map Entity.id ++
      library.coreCards.entities.flatMap Entity.abilityIds).Nodup := by
  obtain ⟨-, ⟨u, hu⟩, hentities⟩ := fromSets_ok hlibrary
  have hsub : ∀ set ∈ sets, (set.cards.entities.map Entity.id ++
      set.cards.entities.flatMap Entity.abilityIds).Sublist set.ids := by
    intro set hset
    obtain ⟨document, hloaded⟩ := hload set hset
    obtain ⟨-, hfaithful⟩ := faithful_of_load hloaded
    rw [hfaithful.cardIds]
    exact ((List.Sublist.refl _).append hfaithful.abilityIds).cons _
  rw [hentities, List.map_flatMap, List.flatMap_assoc]
  exact (List.flatMap_append_perm sets _ _).nodup_iff.mpr
    ((rejectDuplicateIds_ok hu).sublist (.flatMap_right sets hsub))

end

/-- Every id a key names is that of a card. -/
theorem known_of_cardId {newV5 : Vector UInt8 16 → String → String} {sets : List LoadedSet}
    {library : CardLibrary} (hload : ∀ set ∈ sets, ∃ document, load newV5 document = .ok set)
    (hlibrary : CardLibrary.fromSets sets = .ok library) {key : String} {id : EntityId}
    (h : library.cardId key = some id) : library.coreCards.get id ≠ none := by
  obtain ⟨hcards, -, hentities⟩ := fromSets_ok hlibrary
  obtain ⟨entry, hfound, rfl⟩ := Option.map_eq_some_iff.mp h
  have hentry := (qualifiedCards_perm hcards).mem_iff.mp (List.mem_of_find?_eq_some hfound)
  obtain ⟨set, hset, hentry⟩ := List.mem_flatMap.mp hentry
  obtain ⟨own, hown, rfl⟩ := List.mem_map.mp hentry
  obtain ⟨document, hloaded⟩ := hload set hset
  obtain ⟨-, hfaithful⟩ := faithful_of_load hloaded
  have hid : own.2 ∈ set.cards.entities.map Entity.id := by
    rw [hfaithful.cardIds]
    exact List.mem_map_of_mem hown
  obtain ⟨e, he, hid⟩ := List.mem_map.mp hid
  have hall : e ∈ library.coreCards.entities := by
    rw [hentities]
    exact List.mem_flatMap.mpr ⟨set, hset, he⟩
  intro hnone
  exact List.find?_eq_none.mp hnone e hall (decide_eq_true hid)

/-- Every card of a library that prints a Form prints Life. -/
theorem life_of_form {newV5 : Vector UInt8 16 → String → String} {sets : List LoadedSet}
    {library : CardLibrary} (hload : ∀ set ∈ sets, ∃ document, load newV5 document = .ok set)
    (hlibrary : CardLibrary.fromSets sets = .ok library) {e : Entity}
    (he : e ∈ library.coreCards.entities) (hform : (e.get .form).isSome = true) :
    (e.get .life).isSome = true := by
  obtain ⟨-, -, hentities⟩ := fromSets_ok hlibrary
  rw [hentities] at he
  obtain ⟨set, hset, he⟩ := List.mem_flatMap.mp he
  obtain ⟨document, hloaded⟩ := hload set hset
  obtain ⟨-, hfaithful⟩ := faithful_of_load hloaded
  obtain ⟨card, hcard, hprinted, -⟩ := forall₂_mem_right hfaithful.printed he
  rw [hprinted.form.get] at hform
  rw [hprinted.life.get]
  have hstated : card.form.isSome = true := by
    cases hf : card.form with
    | none => rw [hf] at hform; cases hform
    | some form => rfl
  obtain ⟨life, hlife⟩ := Option.isSome_iff_exists.mp (hfaithful.statistics card hcard hstated)
  rw [hlife]
  rfl

/-- A Passive of a library never lowers an opposing Retreat. -/
theorem delta_nonneg {newV5 : Vector UInt8 16 → String → String} {sets : List LoadedSet}
    {library : CardLibrary} (hload : ∀ set ∈ sets, ∃ document, load newV5 document = .ok set)
    (hlibrary : CardLibrary.fromSets sets = .ok library) {e : Entity}
    (he : e ∈ library.coreCards.entities) {delta : Int32}
    (hdelta : e.get .modifier = some (.opposingRetreatCostDelta delta)) : 0 ≤ delta.toInt := by
  obtain ⟨-, -, hentities⟩ := fromSets_ok hlibrary
  rw [hentities] at he
  obtain ⟨set, hset, he⟩ := List.mem_flatMap.mp he
  obtain ⟨document, hloaded⟩ := hload set hset
  obtain ⟨-, hfaithful⟩ := faithful_of_load hloaded
  obtain ⟨card, -, hprinted, -⟩ := forall₂_mem_right hfaithful.printed he
  rw [hprinted.modifiers.get] at hdelta
  obtain ⟨raw, -, hraw⟩ := forall₂_mem_right hprinted.modifiers.all (List.mem_of_head? hdelta)
  cases hraw with
  | opposingRetreatCost hamount => omega

/-- **Authored card facts survive loading.** The key of an authored card names the id of an entity
that prints exactly this card, and no two card or ability entities of a library share an id. -/
theorem authored_facts_survive {newV5 : Vector UInt8 16 → String → String}
    {documents : List Dto.Set} {sets : List LoadedSet} {library : CardLibrary}
    (hload : List.Forall₂ (fun document set => load newV5 document = .ok set) documents sets)
    (hlibrary : CardLibrary.fromSets sets = .ok library) :
    (∀ document ∈ documents, ∀ card ∈ document.cards, ∃ id e,
      library.cardId s!"{document.id}/{card.code}" = some id ∧
        library.coreCards.get id = some e ∧ card.PrintedOn e) ∧
      (library.coreCards.entities.map Entity.id ++
        library.coreCards.entities.flatMap Entity.abilityIds).Nodup := by
  have hnodup := ids_nodup (fun set hset => (forall₂_mem_right hload hset).imp fun _ h => h.2) hlibrary
  obtain ⟨hcards, -, hentities⟩ := fromSets_ok hlibrary
  obtain ⟨hkeys, hindexed⟩ := qualifiedCards_ok hcards
  refine ⟨fun document hdocument card hcard => ?_, hnodup⟩
  obtain ⟨set, hset, hloaded⟩ := forall₂_mem_left hload hdocument
  obtain ⟨hcode, hfaithful⟩ := faithful_of_load hloaded
  obtain ⟨e, he, hprinted, hmem⟩ := forall₂_mem_left hfaithful.printed hcard
  refine ⟨e.id, e, ?_, ?_, hprinted⟩
  · rw [← hcode]
    have hfound := find_of_nodup hkeys (hindexed set hset _ hmem)
    exact congrArg (Option.map Prod.snd) hfound
  · have hpool : e ∈ library.coreCards.entities := by
      rw [hentities]
      exact List.mem_flatMap.mpr ⟨set, hset, he⟩
    exact find_of_nodup (List.nodup_append.mp hnodup).1 hpool

open Specimen in
/-- A Summon with a Skill and a trigger, and a Spell, out of one Set. -/
theorem authored_facts_survive_study : ∃ library : CardLibrary, ∀ card ∈ [drifter, bolt], ∃ id e,
    library.cardId s!"study/{card.code}" = some id ∧ library.coreCards.get id = some e ∧
      card.PrintedOn e := by
  have hshelf : (shelf [drifter, bolt]).isSome = true := by decide +kernel
  obtain ⟨⟨l, library⟩, hr⟩ := Option.isSome_iff_exists.mp hshelf
  obtain ⟨hl, hlibrary⟩ := library_of_shelf hr
  exact ⟨library, (authored_facts_survive (.cons hl .nil) hlibrary).1 (document [drifter, bolt])
    List.mem_cons_self⟩

end Summoners
