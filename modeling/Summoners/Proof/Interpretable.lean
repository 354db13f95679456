import Summoners.Checked.Collect
import Summoners.Steps.Opening

/-! # Which scenarios are interpretable

`Interpretable` is the conjunction of what the five checks of `from_scenario` ask, said of the
scenario as a whole. The checks are read as equivalences one by one; `Occurs` says of each violation
what it reports.
-/

namespace Summoners
set_option autoImplicit false
open Checked

/-! ## Chains -/

/-- The Form printed on a card of the set. -/
def printedForm (cards : CardSet) (card : CardRef) : Option Form :=
  (cards.get card.defId).bind (fun entity => entity.get .form)

/-- Every card prints a Form, and the Forms climb from base to top. -/
def Climbs (cards : CardSet) (layers : List CardRef) : Prop :=
  ∃ forms : List Form, layers.map (printedForm cards) = forms.map some ∧
    forms.Pairwise (fun a b => a.rank < b.rank)

section
variable {cards : CardSet} {player : PlayerId} {position : Position} {card : CardRef}
  {layers : List CardRef} {form previous : Form} {e : InvalidScenario}

theorem formOf_ok_iff :
    Scenario.formOf cards card player position = .ok form ↔ printedForm cards card = some form := by
  unfold Scenario.formOf printedForm
  cases cards.get card.defId with
  | none => simp
  | some entity => cases hform : entity.get .form <;> simp [hform]

/-- A card without a Form is unknown or out of order. -/
theorem formOf_error (h : Scenario.formOf cards card player position = .error e) :
    printedForm cards card = none ∧
      (e = .illegalChainOrder player position ∨
        e = .unknownCardDef card.defId ∧ cards.get card.defId = none) := by
  unfold Scenario.formOf at h
  unfold printedForm
  cases hget : cards.get card.defId with
  | none =>
      rw [hget] at h
      cases h
      exact ⟨rfl, .inr ⟨rfl, rfl⟩⟩
  | some entity =>
      simp only [hget] at h
      cases hform : entity.get .form with
      | none =>
          rw [hform] at h
          cases h
          exact ⟨hform, .inl rfl⟩
      | some form =>
          rw [hform] at h
          cases h

theorem climbs_nil : Climbs cards [] := ⟨[], rfl, .nil⟩

theorem checkClimb_ok_iff {rest : List CardRef} :
    Scenario.checkClimb cards player position previous rest = .ok () ↔
      ∃ forms : List Form, rest.map (printedForm cards) = forms.map some ∧
        (previous :: forms).Pairwise (fun a b => a.rank < b.rank) := by
  induction rest generalizing previous with
  | nil => simp [Scenario.checkClimb]
  | cons card rest ih =>
      unfold Scenario.checkClimb
      constructor
      · intro h
        cases hform : Scenario.formOf cards card player position with
        | error e => simp [hform] at h
        | ok form =>
            simp only [hform, refuse_ok_iff, not_le] at h
            obtain ⟨hlt, hrest⟩ := h
            obtain ⟨forms, hforms, hclimb⟩ := ih.mp hrest
            refine ⟨form :: forms, ?_, ?_⟩
            · rw [List.map_cons, formOf_ok_iff.mp hform, hforms]
              rfl
            · refine .cons ?_ hclimb
              intro above habove
              rcases List.mem_cons.mp habove with rfl | habove
              · exact hlt
              · exact hlt.trans ((List.pairwise_cons.mp hclimb).1 above habove)
      · rintro ⟨forms, hforms, hclimb⟩
        cases forms with
        | nil => simp at hforms
        | cons form forms =>
            rw [List.map_cons, List.map_cons, List.cons.injEq] at hforms
            obtain ⟨habove, hclimb⟩ := List.pairwise_cons.mp hclimb
            have hlt := habove form List.mem_cons_self
            simp only [formOf_ok_iff.mpr hforms.1, refuse_ok_iff, not_le]
            exact ⟨hlt, ih.mpr ⟨forms, hforms.2, hclimb⟩⟩

/-- A chain is built of exactly the layers described, if they climb. -/
theorem buildChain_ok_iff {chain : UpgradeChain} :
    Scenario.buildChain cards player position layers = .ok chain ↔
      chain.layers = layers ∧ Climbs cards layers := by
  obtain ⟨first, others⟩ := chain
  cases layers with
  | nil => simp [Scenario.buildChain, UpgradeChain.layers]
  | cons base rest =>
      unfold Scenario.buildChain
      cases hform : Scenario.formOf cards base player position with
      | error e =>
          have hnone := (formOf_error hform).1
          simp only [hform, reduceCtorEq, false_iff, not_and]
          rintro - ⟨forms, hforms, -⟩
          cases forms with
          | nil => simp at hforms
          | cons form forms => simp [hnone] at hforms
      | ok previous =>
          have hsome := formOf_ok_iff.mp hform
          have hclimb : Scenario.checkClimb cards player position previous rest = .ok () ↔
              Climbs cards (base :: rest) := by
            rw [checkClimb_ok_iff]
            constructor
            · rintro ⟨forms, hforms, hclimb⟩
              exact ⟨previous :: forms, by simp [hsome, hforms], hclimb⟩
            · rintro ⟨forms, hforms, hclimb⟩
              cases forms with
              | nil => simp at hforms
              | cons form forms =>
                  simp only [List.map_cons, hsome, List.cons.injEq, Option.some.injEq] at hforms
                  obtain ⟨rfl, hforms⟩ := hforms
                  exact ⟨forms, hforms, hclimb⟩
          rw [← hclimb]
          cases hcheck : Scenario.checkClimb cards player position previous rest with
          | error e => simp [hform, hcheck]
          | ok u => simp [hform, hcheck, UpgradeChain.layers, eq_comm]

theorem checkClimb_error {rest : List CardRef}
    (h : Scenario.checkClimb cards player position previous rest = .error e) :
    e = .illegalChainOrder player position ∨
      ∃ card ∈ rest, e = .unknownCardDef card.defId ∧ cards.get card.defId = none := by
  induction rest generalizing previous with
  | nil => cases h
  | cons card rest ih =>
      unfold Scenario.checkClimb at h
      cases hform : Scenario.formOf cards card player position with
      | error e' =>
          simp only [hform] at h
          cases h
          exact (formOf_error hform).2.imp_right fun hunknown =>
            ⟨card, List.mem_cons_self, hunknown⟩
      | ok form =>
          simp only [hform] at h
          split at h
          · cases h
            exact .inl rfl
          · exact (ih h).imp_right fun ⟨card, hmem, hunknown⟩ =>
              ⟨card, List.mem_cons_of_mem _ hmem, hunknown⟩

/-- A chain of known cards that is not built is empty or does not climb. -/
theorem buildChain_error (hknown : ∀ card ∈ layers, cards.get card.defId ≠ none)
    (h : Scenario.buildChain cards player position layers = .error e) :
    e = .emptyUpgradeChain player position ∧ layers = [] ∨
      e = .illegalChainOrder player position ∧ layers ≠ [] ∧ ¬Climbs cards layers := by
  cases layers with
  | nil =>
      cases h
      exact .inl ⟨rfl, rfl⟩
  | cons base rest =>
      right
      have hnot : ¬Climbs cards (base :: rest) := by
        intro hclimbs
        have hok : Scenario.buildChain cards player position (base :: rest) = .ok ⟨base, rest⟩ :=
          buildChain_ok_iff.mpr ⟨rfl, hclimbs⟩
        rw [h] at hok
        cases hok
      refine ⟨?_, List.cons_ne_nil _ _, hnot⟩
      unfold Scenario.buildChain at h
      cases hform : Scenario.formOf cards base player position with
      | error e' =>
          simp only [hform] at h
          cases h
          exact (formOf_error hform).2.resolve_right
            fun hunknown => hknown base List.mem_cons_self hunknown.2
      | ok previous =>
          simp only [hform] at h
          cases hcheck : Scenario.checkClimb cards player position previous rest with
          | error e' =>
              simp only [hcheck] at h
              cases h
              exact (checkClimb_error hcheck).resolve_right fun ⟨card, hmem, hunknown⟩ =>
                hknown card (List.mem_cons_of_mem _ hmem) hunknown.2
          | ok u =>
              simp only [hcheck] at h
              cases h

end

/-! ## Instances and definitions -/

section
variable {cards : CardSet} {scenario : Scenario}

theorem firstDuplicate_none_iff {seen : List CardInstanceId} {refs : List CardRef} :
    Scenario.firstDuplicate seen refs = none ↔
      (refs.map (·.instanceId)).Nodup ∧ ∀ card ∈ refs, card.instanceId ∉ seen := by
  induction refs generalizing seen with
  | nil => simp [Scenario.firstDuplicate]
  | cons card rest ih =>
      unfold Scenario.firstDuplicate
      by_cases hseen : card.instanceId ∈ seen
      · simp [hseen]
      · rw [if_neg hseen, ih]
        rw [List.forall_mem_cons, List.map_cons, List.nodup_cons]
        simp only [List.mem_map, List.mem_cons, not_or, not_exists, not_and]
        constructor
        · rintro ⟨hnodup, hrest⟩
          exact ⟨⟨fun other hother => (hrest other hother).1, hnodup⟩, hseen,
            fun other hother => (hrest other hother).2⟩
        · rintro ⟨⟨hfresh, hnodup⟩, -, hrest⟩
          exact ⟨hnodup, fun other hother => ⟨hfresh other hother, hrest other hother⟩⟩

theorem firstDuplicate_some {seen : List CardInstanceId} {refs : List CardRef}
    {id : CardInstanceId} (h : Scenario.firstDuplicate seen refs = some id) :
    2 ≤ (seen ++ refs.map (·.instanceId)).count id := by
  induction refs generalizing seen with
  | nil => cases h
  | cons card rest ih =>
      unfold Scenario.firstDuplicate at h
      split_ifs at h with hseen
      · cases h
        have hpos := List.count_pos_iff.mpr hseen
        simp only [List.map_cons, List.count_append, List.count_cons_self]
        omega
      · have hcount := ih h
        simp only [List.count_append, List.count_cons, List.map_cons] at hcount ⊢
        omega

theorem checkNoDuplicateInstances_ok_iff :
    Scenario.checkNoDuplicateInstances scenario = .ok () ↔
      ((Scenario.allCardRefs scenario).map (·.instanceId)).Nodup := by
  unfold Scenario.checkNoDuplicateInstances
  cases h : Scenario.firstDuplicate [] (Scenario.allCardRefs scenario) with
  | none => simpa using (firstDuplicate_none_iff.mp h).1
  | some id =>
      have hcount := firstDuplicate_some h
      simp only [reduceCtorEq, false_iff]
      intro hnodup
      rw [List.nil_append] at hcount
      have hle := List.nodup_iff_count.mp hnodup id
      omega

theorem checkEveryDefKnown_ok_iff :
    Scenario.checkEveryDefKnown cards scenario = .ok () ↔
      ∀ card ∈ Scenario.allCardRefs scenario, cards.get card.defId ≠ none := by
  unfold Scenario.checkEveryDefKnown
  cases h : (Scenario.allCardRefs scenario).find? (fun card => (cards.get card.defId).isNone) with
  | none => simpa [List.find?_eq_none] using h
  | some card =>
      simp only [reduceCtorEq, false_iff, not_forall]
      exact ⟨card, List.mem_of_find?_eq_some h, by simpa using List.find?_some h⟩

end

/-! ## Players -/

/-- A chain that can be put in play. -/
structure LegalChain (cards : CardSet) (layers : List CardRef) : Prop where
  nonempty : layers ≠ []
  climbs : Climbs cards layers

/-- What `from_scenario` asks of a scenario. -/
structure Interpretable (cards : CardSet) (scenario : Scenario) : Prop where
  distinct : ((Scenario.allCardRefs scenario).map (·.instanceId)).Nodup
  known : ∀ card ∈ Scenario.allCardRefs scenario, cards.get card.defId ≠ none
  chains : ∀ player position summon,
    (scenario.players.get player).describedAt position = some summon →
      LegalChain cards summon.chain
  inPlay : ∀ player, ∃ position, (scenario.players.get player).describedAt position ≠ none

/-- Every zone, chain and counter is as described. -/
structure AsDescribed (sp : ScenarioPlayer) (ps : PlayerState) : Prop where
  deck : ps.deck = sp.deck
  hand : ps.hand = sp.hand
  prizes : ps.prizes = sp.prizes
  discard : ps.discard = sp.discard
  enchantments : ps.enchantments = []
  mana : ps.mana = sp.mana
  mainLosses : ps.mainLosses = sp.mainLosses
  board : ∀ position, (ps.summonAt position).map (fun x => (x.chain.layers, x.damage, x.readiness)) =
    (sp.describedAt position).map (fun x => (x.chain, x.damage, x.readiness))

/-- What a violation reports. -/
def Occurs (cards : CardSet) (scenario : Scenario) : InvalidScenario → Prop
  | .duplicateCardInstance id =>
      2 ≤ ((Scenario.allCardRefs scenario).map (·.instanceId)).count id
  | .unknownCardDef id =>
      cards.get id = none ∧ ∃ card ∈ Scenario.allCardRefs scenario, card.defId = id
  | .emptyUpgradeChain player position => ∃ summon,
      (scenario.players.get player).describedAt position = some summon ∧ summon.chain = []
  | .illegalChainOrder player position => ∃ summon,
      (scenario.players.get player).describedAt position = some summon ∧ summon.chain ≠ [] ∧
        ¬Climbs cards summon.chain
  | .noSummonInPlay player =>
      ∀ position, (scenario.players.get player).describedAt position = none

section
variable {cards : CardSet} {player : PlayerId} {position : Position} {sp : ScenarioPlayer}
  {scenario : Scenario} {e : InvalidScenario}

theorem buildAt_isOk_iff {summon : Option ScenarioSummon} :
    (∃ r, Scenario.buildAt cards player position summon = .ok r) ↔
      ∀ x, summon = some x → LegalChain cards x.chain := by
  cases summon with
  | none => simp [Scenario.buildAt]
  | some x =>
      simp only [Scenario.buildAt, Scenario.buildSummonInstance, Option.some.injEq, forall_eq']
      cases hchain : Scenario.buildChain cards player position x.chain with
      | ok chain =>
          obtain ⟨hlayers, hclimbs⟩ := buildChain_ok_iff.mp hchain
          simp only [Except.map, Except.ok.injEq, exists_eq', true_iff]
          refine ⟨?_, hclimbs⟩
          rw [← hlayers]
          exact List.cons_ne_nil _ _
      | error e =>
          simp only [Except.map, reduceCtorEq, exists_false, false_iff]
          rintro ⟨hne, hclimbs⟩
          cases hlayers : x.chain with
          | nil => exact hne hlayers
          | cons base rest =>
              have hok : Scenario.buildChain cards player position x.chain = .ok ⟨base, rest⟩ :=
                buildChain_ok_iff.mpr ⟨hlayers.symm, hclimbs⟩
              rw [hchain] at hok
              cases hok

/-- Something is built where something is described. -/
theorem buildAt_isNone {summon : Option ScenarioSummon} {r : Option SummonInstance}
    (h : Scenario.buildAt cards player position summon = .ok r) : r.isNone = summon.isNone := by
  have hsame := congrArg Option.isNone (buildAt_ok h)
  rwa [Option.isNone_map, Option.isNone_map] at hsame

theorem buildAt_error {summon : Option ScenarioSummon}
    (hknown : ∀ x, summon = some x → ∀ card ∈ x.chain, cards.get card.defId ≠ none)
    (h : Scenario.buildAt cards player position summon = .error e) :
    ∃ x, summon = some x ∧
      (e = .emptyUpgradeChain player position ∧ x.chain = [] ∨
        e = .illegalChainOrder player position ∧ x.chain ≠ [] ∧ ¬Climbs cards x.chain) := by
  cases summon with
  | none => cases h
  | some x =>
      simp only [Scenario.buildAt, Scenario.buildSummonInstance] at h
      cases hchain : Scenario.buildChain cards player position x.chain with
      | error e' =>
          rw [hchain] at h
          cases h
          exact ⟨x, rfl, buildChain_error (hknown x rfl) hchain⟩
      | ok chain =>
          rw [hchain] at h
          cases h

/-- Every card of a described chain is among the card references. -/
theorem mem_allCardRefs {summon : ScenarioSummon} {card : CardRef}
    (h : (scenario.players.get player).describedAt position = some summon)
    (hcard : card ∈ summon.chain) : card ∈ Scenario.allCardRefs scenario := by
  have hrefs : card ∈ Scenario.playerCardRefs (scenario.players.get player) := by
    refine List.mem_append_right _ (List.mem_flatMap.mpr ⟨(position, summon), ?_, hcard⟩)
    unfold Scenario.positionedSummons
    cases position with
    | main =>
        have hmain : (scenario.players.get player).main = some summon := h
        simp [hmain]
    | bench slot =>
        have hbench : (scenario.players.get player).bench slot = some summon := h
        refine List.mem_append_right _ (List.mem_flatMap.mpr ⟨slot, BenchSlot.mem_all slot, ?_⟩)
        simp [hbench]
  cases player with
  | one => exact List.mem_append_left _ hrefs
  | two => exact List.mem_append_right _ hrefs

/-- A player is built if the four positions are, and one of them is filled. -/
theorem buildPlayerState_isOk_iff :
    (∃ ps, Scenario.buildPlayerState cards player sp = .ok ps) ↔
      (∀ position x, sp.describedAt position = some x → LegalChain cards x.chain) ∧
        ∃ position, sp.describedAt position ≠ none := by
  constructor
  · rintro ⟨ps, h⟩
    obtain ⟨hbuilt, ⟨position, hposition⟩, -⟩ := buildPlayerState_ok h
    refine ⟨fun p => buildAt_isOk_iff.mp ⟨_, hbuilt p⟩, position, ?_⟩
    intro hnone
    have hok := hbuilt position
    rw [hnone] at hok
    exact hposition (Except.ok.inj hok).symm
  · rintro ⟨hchains, position, hposition⟩
    obtain ⟨main, hmain⟩ := buildAt_isOk_iff.mpr (hchains .main)
    obtain ⟨first, hfirst⟩ := buildAt_isOk_iff.mpr (hchains (.bench .first))
    obtain ⟨second, hsecond⟩ := buildAt_isOk_iff.mpr (hchains (.bench .second))
    obtain ⟨third, hthird⟩ := buildAt_isOk_iff.mpr (hchains (.bench .third))
    unfold Scenario.buildPlayerState
    simp only [ScenarioPlayer.describedAt] at hmain hfirst hsecond hthird
    rw [hmain, ok_bind, hfirst, ok_bind, hsecond, ok_bind, hthird, ok_bind, if_neg]
    · exact ⟨_, rfl⟩
    · -- the position described is built, so not all four are empty
      rw [buildAt_isNone hmain, buildAt_isNone hfirst, buildAt_isNone hsecond,
        buildAt_isNone hthird]
      simp only [Bool.and_eq_true, Option.isNone_iff_eq_none, not_and]
      rintro h0 ⟨h1, h2⟩ h3
      cases position with
      | main => exact hposition h0
      | bench slot =>
          cases slot with
          | first => exact hposition h1
          | second => exact hposition h2
          | third => exact hposition h3

theorem buildPlayerState_mana {ps : PlayerState}
    (h : Scenario.buildPlayerState cards player sp = .ok ps) : ps.mana = sp.mana := by
  simp only [Scenario.buildPlayerState, bind_ok_iff] at h
  obtain ⟨_, -, _, -, _, -, _, -, h⟩ := h
  split at h
  · cases h
  · cases h
    rfl

/-- A player of known cards who is not built has a bad chain or no Summon. -/
theorem buildPlayerState_error
    (hknown : ∀ position x, sp.describedAt position = some x →
      ∀ card ∈ x.chain, cards.get card.defId ≠ none)
    (h : Scenario.buildPlayerState cards player sp = .error e) :
    (∃ position x, sp.describedAt position = some x ∧
      (e = .emptyUpgradeChain player position ∧ x.chain = [] ∨
        e = .illegalChainOrder player position ∧ x.chain ≠ [] ∧ ¬Climbs cards x.chain)) ∨
      e = .noSummonInPlay player ∧ ∀ position, sp.describedAt position = none := by
  have hat : ∀ position, Scenario.buildAt cards player position (sp.describedAt position) =
      .error e → ∃ position x, sp.describedAt position = some x ∧
        (e = .emptyUpgradeChain player position ∧ x.chain = [] ∨
          e = .illegalChainOrder player position ∧ x.chain ≠ [] ∧ ¬Climbs cards x.chain) :=
    fun position herr => ⟨position, buildAt_error (hknown position) herr⟩
  unfold Scenario.buildPlayerState at h
  simp only [bind_error_iff] at h
  obtain hmain | ⟨main, hmain, hfirst | ⟨first, hfirst, hsecond | ⟨second, hsecond,
    hthird | ⟨third, hthird, h⟩⟩⟩⟩ := h
  · exact .inl (hat .main hmain)
  · exact .inl (hat (.bench .first) hfirst)
  · exact .inl (hat (.bench .second) hsecond)
  · exact .inl (hat (.bench .third) hthird)
  · split at h
    · rename_i hempty
      cases h
      rw [buildAt_isNone hmain, buildAt_isNone hfirst, buildAt_isNone hsecond,
        buildAt_isNone hthird] at hempty
      simp only [Bool.and_eq_true, Option.isNone_iff_eq_none] at hempty
      refine .inr ⟨rfl, fun position => ?_⟩
      cases position with
      | main => exact hempty.1
      | bench slot =>
          cases slot with
          | first => exact hempty.2.1.1
          | second => exact hempty.2.1.2
          | third => exact hempty.2.2
    · cases h

/-- A player's violation is one of the scenario. -/
theorem occurs_of_player (hknown : Scenario.checkEveryDefKnown cards scenario = .ok ())
    (h : Scenario.buildPlayerState cards player (scenario.players.get player) = .error e) :
    Occurs cards scenario e := by
  have hcards := checkEveryDefKnown_ok_iff.mp hknown
  obtain ⟨position, x, hx, ⟨rfl, hempty⟩ | ⟨rfl, hne, hclimbs⟩⟩ | ⟨rfl, hnone⟩ :=
    buildPlayerState_error (fun p x hx card hcard => hcards card (mem_allCardRefs hx hcard)) h
  · exact ⟨x, hx, hempty⟩
  · exact ⟨x, hx, hne, hclimbs⟩
  · exact hnone

theorem fromScenario_isOk_iff :
    (∃ s, fromScenario cards scenario = .ok s) ↔ Interpretable cards scenario := by
  constructor
  · rintro ⟨s, h⟩
    obtain ⟨hdistinct, hknown, hplayers, -⟩ := fromScenario_parts h
    have hbuilt := fun player => buildPlayerState_isOk_iff.mp ⟨_, hplayers player⟩
    exact ⟨checkNoDuplicateInstances_ok_iff.mp hdistinct, checkEveryDefKnown_ok_iff.mp hknown,
      fun player => (hbuilt player).1, fun player => (hbuilt player).2⟩
  · intro h
    have hbuilt : ∀ player, ∃ ps,
        Scenario.buildPlayerState cards player (scenario.players.get player) = .ok ps :=
      fun player => buildPlayerState_isOk_iff.mpr ⟨h.chains player, h.inPlay player⟩
    obtain ⟨one, hone⟩ := hbuilt .one
    obtain ⟨two, htwo⟩ := hbuilt .two
    unfold fromScenario
    rw [checkNoDuplicateInstances_ok_iff.mpr h.distinct, checkEveryDefKnown_ok_iff.mpr h.known]
    simp only [ok_bind]
    simp only [PerPlayer.get] at hone htwo
    rw [hone, htwo]
    exact ⟨_, rfl⟩

/-- An interpreted scenario is as described. -/
theorem asDescribed_of_fromScenario {s : GameState} (h : fromScenario cards scenario = .ok s)
    (player : PlayerId) : AsDescribed (scenario.players.get player) (s.player player) := by
  obtain ⟨-, -, hplayers, -⟩ := fromScenario_parts h
  obtain ⟨hboard, -, hdeck, hhand, hprizes, hdiscard, henchantments, hlosses⟩ :=
    buildPlayerState_ok (hplayers player)
  exact ⟨hdeck, hhand, hprizes, hdiscard, henchantments, buildPlayerState_mana (hplayers player),
    hlosses, fun position => buildAt_ok (hboard position)⟩

end

/-- `from_scenario` accepts exactly the interpretable scenarios, builds what they describe, and
reports a violation that is there. -/
theorem fromScenario_accepts_iff_interpretable (cards : CardSet) (scenario : Scenario) :
    ((∃ s, fromScenario cards scenario = .ok s) ↔ Interpretable cards scenario) ∧
      (∀ s, fromScenario cards scenario = .ok s →
        ∀ player, AsDescribed (scenario.players.get player) (s.player player)) ∧
      ∀ e, fromScenario cards scenario = .error e → Occurs cards scenario e := by
  refine ⟨fromScenario_isOk_iff, fun s h => asDescribed_of_fromScenario h, fun e h => ?_⟩
  unfold fromScenario at h
  simp only [bind_error_iff] at h
  obtain hdup | ⟨-, -, hunknown | ⟨_, hknown, hone | ⟨one, -, htwo | ⟨two, -, h⟩⟩⟩⟩ := h
  · unfold Scenario.checkNoDuplicateInstances at hdup
    split at hdup
    · rename_i id hid
      cases hdup
      exact firstDuplicate_some hid
    · cases hdup
  · unfold Scenario.checkEveryDefKnown at hunknown
    split at hunknown
    · rename_i card hcard
      cases hunknown
      exact ⟨by simpa using List.find?_some hcard, card, List.mem_of_find?_eq_some hcard, rfl⟩
    · cases hunknown
  · exact occurs_of_player hknown hone
  · exact occurs_of_player hknown htwo
  · cases h

end Summoners
