import Summoners.Cards.Specimen
import Summoners.Proof.Identity
import Summoners.Proof.Rest
import Summoners.Proof.Termination
import Summoners.Steps.Stock

/-! # A move is left

A pending decision stores a player and, of a Mana production, a position; its answer is checked against
the board once more. What asks for a decision looks at the board first, and nothing moves while it is
pending, the leaves behind a Mana production in the same Skill apart. Of these only a Bench move vacates
a position. Where no Skill vacates the slot it has asked about, every decision has an answer; and where
nobody is asked, there is Priority to pass or a turn to end.
-/

namespace Summoners
set_option autoImplicit false

open Effects RunToCompletion Destruction

/-- Every Summon in play shows a card that prints a Form. -/
def Formed (s : GameState) : Prop :=
  ∀ q p x, (s.player q).summonAt p = some x →
    ∃ e, s.cards.get x.chain.top.defId = some e ∧ (e.get .form).isSome = true

/-- What a decision asks about is there: the Summon that produces, one to promote, a Prize. -/
def Answerable (s : GameState) : PendingInput → Prop
  | .manaProduction c (.summon p) => ((s.player c).summonAt p).isSome = true
  | .manaProduction c .player => ∃ p, ((s.player c).summonAt p).isSome = true
  | .promotion c => ∃ slot, ((s.player c).bench.get slot).isSome = true
  | .prizePick c => (s.player c.opponent).prizes ≠ []

/-- The pending decision, if there is one, asks about what is there. -/
def Askable (s : GameState) : Prop := ∀ d, s.pending = some d → Answerable s d

/-- Whether leaves leave a choice of Mana behind at the Bench slot they name: the Summon there would
produce `here`, the one in Main `there`, and `paused` says whether a leaf has asked. -/
def strands (here there : List ManaType) (paused : Bool) : List EffectLeaf → Bool
  | [] => false
  | .produceMana _ :: leaves => strands here there (paused || decide (2 ≤ here.length)) leaves
  | .swapPositions :: leaves => strands there here paused leaves
  | .moveSummon :: _ => paused
  | _ :: leaves => strands here there paused leaves

/-- The leaves of a Skill, if its Summon prints it. -/
def skillLeaves (s : GameState) (c : PlayerId) (p : Position) (ability : EntityId) :
    List EffectLeaf :=
  match (s.player c).summonAt p with
  | none => []
  | some x =>
      match s.cards.get x.chain.top.defId with
      | none => []
      | some top =>
          match (top.all .skill).find? (fun e => e.id = ability) with
          | none => []
          | some skill => skill.all .effectLeaf

/-- Whether an action is a Skill that asks which Mana a benched Summon produces and then moves it to
another slot. -/
def strandsMana (s : GameState) : GameAction → Bool
  | .activateSkill c p ability (.bench slot :: _) _ =>
      strands (Upkeep.summonTypes s.cards (s.player c) (.bench slot))
        (Upkeep.summonTypes s.cards (s.player c) .main) false (skillLeaves s c p ability)
  | _ => false

section
variable {s t u : GameState} {es : List GameEvent} {c q : PlayerId} {p : Position}
  {x y : SummonInstance} {ps : PlayerState}

/-! ## Summons print a Form -/

theorem Formed.descends (h : Formed s) (hd : Descends s t) (hcards : t.cards = s.cards) :
    Formed t := by
  intro q p y hy
  obtain ⟨r, x, hx, same⟩ := hd q p y hy
  rw [hcards, same.chain]
  exact h q r x hx

theorem Formed.place (h : Formed s) (hps : ∀ r, ps.summonAt r = (s.player c).summonAt r)
    (hy : ∃ e, s.cards.get y.chain.top.defId = some e ∧ (e.get .form).isSome = true) :
    Formed (s.setPlayer c (ps.setAt p (some y))) := by
  intro q r z hz
  obtain ⟨-, -, rfl⟩ | ⟨-, hz⟩ := summonAt_placed hps hz
  · exact hy
  · exact h q r z hz

theorem upgraded_top (x : SummonInstance) (card : CardRef) :
    (Board.upgraded x card).chain.top = card := by
  simp [Board.upgraded, UpgradeChain.top]

theorem Formed.action {a : GameAction} (h : Formed s) (hs : s.status = .playing)
    (hst : ActionStep s a t es) : Formed t := by
  by_cases hplay : ∃ c card slot, a = .playSummon c card slot
  · obtain ⟨c, card, slot, rfl⟩ := hplay
    cases hst with
    | @played _ _ _ ref hand entity _ _ _ hcard _ hform =>
        have hentering : (Board.enteringSummon c ref).chain.top = ref := rfl
        refine h.place (p := .bench slot) (summonAt_hand (s.player c) hand) ⟨entity, ?_, ?_⟩
        · rw [hentering]
          exact hcard
        · rw [hform]
          rfl
  · by_cases hupgrade : ∃ c card p, a = .upgradeSummon c card p
    · obtain ⟨c, card, p, rfl⟩ := hupgrade
      cases hst with
      | @upgraded _ _ _ y ref hand entity _ _ _ _ _ _ _ hcard _ hform _ _ _ =>
          refine h.place (summonAt_hand (s.player c) hand) ⟨entity, ?_, ?_⟩
          · rw [upgraded_top]
            exact hcard
          · rw [hform]
            rfl
    · simp only [not_exists] at hplay hupgrade
      exact h.descends (hst.descends hs hplay hupgrade) (hst.thins hs).1

theorem Formed.drainStep (h : Formed s) (hn : Resolution.drainStep s = some (t, es)) : Formed t :=
  h.descends (drainStep_descends hn) (drainStep_thins hn).1

/-- Every layer of a chain that is built prints a Form. -/
theorem formOf_of_buildChain {cards : CardSet} {layers : List CardRef} {chain : UpgradeChain}
    (h : Scenario.buildChain cards c p layers = .ok chain) :
    ∃ form, Scenario.formOf cards chain.top c p = .ok form := by
  have hclimb : ∀ (rest : List CardRef) (previous : Form),
      Scenario.checkClimb cards c p previous rest = .ok () →
        ∀ card ∈ rest, ∃ form, Scenario.formOf cards card c p = .ok form := by
    intro rest
    induction rest with
    | nil => simp
    | cons first rest ih =>
        intro previous hok card hcard
        unfold Scenario.checkClimb at hok
        split at hok
        · cases hok
        · rename_i form hform
          split at hok
          · cases hok
          · rcases List.mem_cons.mp hcard with rfl | hcard
            · exact ⟨form, hform⟩
            · exact ih form hok card hcard
  unfold Scenario.buildChain at h
  split at h
  · cases h
  · rename_i base rest
    split at h
    · cases h
    · rename_i previous hbase
      split at h
      · cases h
      · rename_i hok
        cases h
        unfold UpgradeChain.top
        cases hlast : rest.getLast? with
        | none => exact ⟨previous, hbase⟩
        | some card => exact hclimb rest previous hok card (List.mem_of_getLast? hlast)

theorem start_formed {cards : CardSet} {scenario : Scenario}
    (h : fromScenario cards scenario = .ok s) : Formed s := by
  obtain ⟨-, -, hplayers, -⟩ := fromScenario_parts h
  have hcards : s.cards = cards := (opening_of_fromScenario h).cards
  intro q p x hx
  have hbuilt := (buildPlayerState_ok (hplayers q)).1 p
  rw [hx] at hbuilt
  have hchain : ∃ summon, Scenario.buildSummonInstance cards q p summon = .ok x := by
    cases hd : (scenario.players.get q).describedAt p with
    | none =>
        rw [hd] at hbuilt
        cases hbuilt
    | some summon =>
        rw [hd] at hbuilt
        simp only [Scenario.buildAt] at hbuilt
        cases hb : Scenario.buildSummonInstance cards q p summon with
        | error e =>
            rw [hb] at hbuilt
            cases hbuilt
        | ok y =>
            rw [hb] at hbuilt
            cases hbuilt
            exact ⟨summon, hb⟩
  obtain ⟨summon, hsummon⟩ := hchain
  unfold Scenario.buildSummonInstance at hsummon
  split at hsummon
  · cases hsummon
  · rename_i chain hchain
    cases hsummon
    obtain ⟨form, hform⟩ := formOf_of_buildChain hchain
    unfold Scenario.formOf at hform
    rw [hcards]
    split at hform
    · cases hform
    · rename_i entity hentity
      split at hform
      · cases hform
      · rename_i f hf
        exact ⟨entity, hentity, by rw [hf]; rfl⟩

/-- A Summon in play produces some Type of Mana. -/
theorem Formed.producedTypes (h : Formed s) (hcards : s.cards.Authored)
    (hx : (s.player q).summonAt p = some x) : Upkeep.producedTypes s.cards x ≠ [] := by
  obtain ⟨e, he, hform⟩ := h q p x hx
  unfold Upkeep.producedTypes
  rw [he]
  exact (hcards e (CardSet.get_mem he)).manaTypes hform

/-! ## What a leaf asks about -/

/-- Nobody is asked, or for the Mana of a Summon that is there. -/
def AskedMana (s : GameState) : Prop :=
  ∀ d, s.pending = some d →
    ∃ c p, d = .manaProduction c (.summon p) ∧ ((s.player c).summonAt p).isSome = true

theorem AskedMana.of_none (h : s.pending = none) : AskedMana s := by
  intro d hd
  rw [h] at hd
  cases hd

theorem AskedMana.askable (h : AskedMana s) : Askable s := by
  intro d hd
  obtain ⟨c, p, rfl, hx⟩ := h d hd
  exact hx

theorem AskedMana.keep (h : AskedMana s) (hpending : t.pending = s.pending)
    (hboard : ∀ c p, ((s.player c).summonAt p).isSome = true →
      ((t.player c).summonAt p).isSome = true) : AskedMana t := by
  intro d hd
  rw [hpending] at hd
  obtain ⟨c, p, rfl, hx⟩ := h d hd
  exact ⟨c, p, rfl, hboard c p hx⟩

/-- A board written so that no position is vacated. -/
theorem occupied_setPlayer
    (h : ∀ p, ((s.player c).summonAt p).isSome = true → (ps.summonAt p).isSome = true) (q : PlayerId)
    (p : Position) (hx : ((s.player q).summonAt p).isSome = true) :
    (((s.setPlayer c ps).player q).summonAt p).isSome = true := by
  rw [GameState.player_setPlayer]
  split
  · rename_i hq
    subst hq
    exact h p hx
  · exact hx

theorem Stands.occupied (h : Stands s t) (c : PlayerId) (p : Position)
    (hx : ((s.player c).summonAt p).isSome = true) : ((t.player c).summonAt p).isSome = true := by
  obtain ⟨x, hx⟩ := Option.isSome_iff_exists.mp hx
  obtain ⟨y, hy, -⟩ := PlayerState.Stands.summonAt (h c) hx
  rw [hy]
  rfl

theorem occupied_exchange {slot : BenchSlot} (r : Position)
    (hx : (ps.summonAt r).isSome = true) : ((exchange ps slot x y).summonAt r).isSome = true := by
  cases r with
  | main => rfl
  | bench r =>
      simp only [exchange, PlayerState.summonAt_bench]
      by_cases hr : r = slot
      · subst hr
        rw [Bench.get_set_self]
        rfl
      · rw [Bench.get_set_of_ne _ hr]
        exact hx

theorem LeafStep.pending {source : EffectSource} {targets : List Position} {leaf : EffectLeaf}
    (h : LeafStep s source targets leaf t es) :
    t.pending = s.pending ∨
      ∃ p, (∃ target, leaf = .produceMana target) ∧
        2 ≤ (Upkeep.summonTypes s.cards (s.player source.controller) p).length ∧
          t = { s with pending := some (.manaProduction source.controller (.summon p)) } := by
  cases h with
  | @paused p t u ts ht hleaf =>
      refine .inr ⟨p, hleaf, ?_, rfl⟩
      have htypes : Upkeep.summonTypes s.cards (s.player source.controller) p = t :: u :: ts := ht
      rw [htypes]
      simp
  | _ => exact .inl rfl

theorem occupied_of_types (h : Upkeep.summonTypes s.cards (s.player c) p ≠ []) :
    ((s.player c).summonAt p).isSome = true := by
  unfold Upkeep.summonTypes at h
  split at h
  · exact absurd rfl h
  · rename_i x hx
    rw [hx]
    rfl

/-- No leaf but a Bench move vacates a position. -/
theorem LeafStep.occupied {source : EffectSource} {targets : List Position} {leaf : EffectLeaf}
    (h : LeafStep s source targets leaf t es) (hleaf : leaf ≠ .moveSummon) (c : PlayerId)
    (p : Position) (hx : ((s.player c).summonAt p).isSome = true) :
    ((t.player c).summonAt p).isSome = true := by
  by_cases hmoves : leaf.moves = true
  · cases h with
    | exchanged hmain hbench _ _ =>
        exact occupied_setPlayer (s := s) (fun r hr => occupied_exchange r hr) c p hx
    | moved _ _ hmove _ => exact absurd hmove hleaf
    | quiet _ => exact hx
    | touched hy same _ _ _ => exact (Stands.write (stands_setAt hy same)).occupied c p hx
    | hit hy same _ _ _ => exact (Stands.write (stands_setAt hy same)).occupied c p hx
    | zones hz _ => exact (Stands.write (stands_of_board hz.main hz.bench)).occupied c p hx
    | drewOut hz _ => exact (Stands.write (stands_of_board hz.main hz.bench)).occupied c p hx
    | produced _ _ => exact (Stands.write (stands_bank _ _)).occupied c p hx
    | paused _ _ => exact hx
  · exact (h.stands (by simpa using hmoves)).occupied c p hx

theorem LeafStep.askedMana {source : EffectSource} {targets : List Position} {leaf : EffectLeaf}
    (h : LeafStep s source targets leaf t es) (hleaf : leaf ≠ .moveSummon) (hs : AskedMana s) :
    AskedMana t := by
  rcases h.pending with hp | ⟨p, -, htypes, rfl⟩
  · exact hs.keep hp (h.occupied hleaf)
  · intro d hd
    cases hd
    refine ⟨source.controller, p, rfl, occupied_of_types (s := s) (fun hnil => ?_)⟩
    rw [hnil] at htypes
    simp at htypes

theorem applyLeaves_askedMana {source : EffectSource} {targets : List Position}
    {leaves : List EffectLeaf} (h : applyLeaves s source targets leaves = (t, es))
    (hs : s.status = .playing) (hleaves : .moveSummon ∉ leaves) (ha : AskedMana s) :
    AskedMana t :=
  applyLeaves_rel (R := fun s _ t => AskedMana s → AskedMana t) h hs (fun _ ha => ha)
    (fun _ h h' ha => h' (h ha))
    (fun hmem _ h ha => h.askedMana (fun heq => hleaves (by rwa [heq] at hmem)) ha) ha

/-! ## The leaves of a Skill -/

theorem Stands.summonTypes (h : Stands s t) (hcards : t.cards = s.cards) (c : PlayerId)
    (p : Position) : Upkeep.summonTypes t.cards (t.player c) p =
      Upkeep.summonTypes s.cards (s.player c) p := by
  unfold Upkeep.summonTypes
  rw [hcards]
  have hp := h c p
  generalize (s.player c).summonAt p = x at hp
  generalize (t.player c).summonAt p = y at hp
  cases hp with
  | none => rfl
  | some same => simp only [Upkeep.producedTypes, same.chain]

/-- Once its slot is vacated, a Skill asks nothing more about it. -/
theorem applyLeaves_vacated {source : EffectSource} {slot : BenchSlot} {rest : List Position}
    {leaves : List EffectLeaf}
    (h : applyLeaves s source (.bench slot :: rest) leaves = (t, es))
    (hadm : ∀ leaf ∈ leaves, Model.EffectContext.skill.admits leaf = true)
    (hslot : (s.player source.controller).bench.get slot = none) (hs : s.pending = none) :
    t.pending = none := by
  induction leaves generalizing s t es with
  | nil =>
      cases h
      exact hs
  | cons leaf leaves ih =>
      have hstep := applyLeaf_step s source (.bench slot :: rest) leaf
      -- the slot stays empty, and what is produced there is nothing
      have hkept : (applyLeaf s source (.bench slot :: rest) leaf).1.pending = none ∧
          ((applyLeaf s source (.bench slot :: rest) leaf).1.player source.controller).bench.get slot =
            none := by
        have hfirst := hadm leaf List.mem_cons_self
        by_cases hmoves : leaf.moves = true
        · cases leaf with
          | moveSummon =>
              cases rest with
              | nil => exact ⟨hs, hslot⟩
              | cons r rest =>
                  cases r with
                  | main => exact ⟨hs, hslot⟩
                  | bench r =>
                      simp only [applyLeaf, moveSummon, hslot]
                      split <;> exact ⟨hs, hslot⟩
          | swapPositions =>
              simp only [applyLeaf, swapPositions, hslot]
              cases (s.player source.controller).main <;> exact ⟨hs, hslot⟩
          | swapOpposingPositions =>
              have hne : source.controller ≠ source.controller.opponent :=
                (PlayerId.opponent_ne _).symm
              simp only [applyLeaf, swapOpposingPositions]
              split
              · exact ⟨hs, hslot⟩
              · split
                · exact ⟨hs, hslot⟩
                · split
                  · exact ⟨hs, hslot⟩
                  · refine ⟨hs, ?_⟩
                    simp only [swapBoard, GameState.pushBack_player]
                    rw [GameState.player_setPlayer_of_ne _ _ _ hne]
                    exact hslot
          | _ => cases hmoves
        · have hstands := hstep.stands (by simpa using hmoves)
          constructor
          · rcases hstep.pending with hp | ⟨p, ⟨target, rfl⟩, -, -⟩
            · rw [hp]
              exact hs
            · -- a Skill's Mana is that of the named slot
              cases target with
              | source => cases hfirst
              | selected =>
                  have htypes : Upkeep.availableTypes s.cards (s.player source.controller)
                      (.summon (.bench slot)) = [] := by
                    simp [Upkeep.availableTypes, Upkeep.summonTypes, hslot]
                  simp only [applyLeaf, effectPosition, List.head?_cons, produceManaLeaf,
                    Upkeep.produceMana, htypes]
                  exact hs
          · have hp := hstands source.controller (.bench slot)
            rw [PlayerState.summonAt_bench, PlayerState.summonAt_bench, hslot] at hp
            generalize ((applyLeaf s source (.bench slot :: rest) leaf).1.player
              source.controller).bench.get slot = z at hp
            cases hp
            rfl
      unfold applyLeaves at h
      simp only at h
      split at h
      · cases h
        exact ih rfl (fun l hl => hadm l (List.mem_cons_of_mem _ hl)) hkept.2 hkept.1
      · rw [h] at hkept
        exact hkept.1

/-- What the leaves of a Skill still to run find: the Types of the named slot and of Main, a decision
only if `paused`, and the Summons its own moves need. -/
structure Walk (s : GameState) (c : PlayerId) (slot : BenchSlot) (rest : List Position)
    (leaves : List EffectLeaf) (here there : List ManaType) (paused : Bool) : Prop where
  here : Upkeep.summonTypes s.cards (s.player c) (.bench slot) = here
  there : Upkeep.summonTypes s.cards (s.player c) .main = there
  paused : paused = false → s.pending = none
  asked : AskedMana s
  swap : .swapPositions ∈ leaves →
    Skills.validSwapPositions (s.player c) (.bench slot :: rest) = true
  move : .moveSummon ∈ leaves → Skills.validMoveSummon (s.player c) (.bench slot :: rest) = true

theorem validSwapPositions_iff {slot : BenchSlot} {rest : List Position} :
    Skills.validSwapPositions ps (.bench slot :: rest) = true ↔
      (∃ y, ps.bench.get slot = some y) ∧ ∃ x, ps.main = some x := by
  simp [Skills.validSwapPositions, Option.isSome_iff_exists]

theorem validMoveSummon_iff {slot : BenchSlot} {rest : List Position} :
    Skills.validMoveSummon ps (.bench slot :: rest) = true ↔
      ∃ toSlot rest', rest = .bench toSlot :: rest' ∧ (∃ y, ps.bench.get slot = some y) ∧
        ps.bench.get toSlot = none := by
  cases rest with
  | nil => simp [Skills.validMoveSummon]
  | cons r rest =>
      cases r with
      | main => simp [Skills.validMoveSummon]
      | bench r => simp [Skills.validMoveSummon, Option.isSome_iff_exists]

/-- Which positions are occupied decides which moves are valid. -/
theorem valid_of_occupancy {qs : PlayerState}
    (h : ∀ p, (qs.summonAt p).isSome = (ps.summonAt p).isSome) (slot : BenchSlot)
    (rest : List Position) :
    Skills.validSwapPositions qs (.bench slot :: rest) =
        Skills.validSwapPositions ps (.bench slot :: rest) ∧
      Skills.validMoveSummon qs (.bench slot :: rest) =
        Skills.validMoveSummon ps (.bench slot :: rest) := by
  have hbench : ∀ r, (qs.bench.get r).isSome = (ps.bench.get r).isSome := fun r => h (.bench r)
  have hmain : qs.main.isSome = ps.main.isSome := h .main
  constructor
  · simp only [Skills.validSwapPositions, hbench, hmain]
  · cases rest with
    | nil => rfl
    | cons r rest =>
        cases r with
        | main => rfl
        | bench r => simp only [Skills.validMoveSummon, hbench, ← Option.not_isSome]

theorem produceMana_pending {source : ManaSource}
    (h : (Upkeep.availableTypes s.cards (s.player c) source).length < 2) :
    (Upkeep.produceMana s c source).1.pending = s.pending := by
  unfold Upkeep.produceMana
  split
  · rfl
  · rfl
  · rename_i htypes
    rw [htypes] at h
    simp only [List.length_cons] at h
    omega

section
variable {slot : BenchSlot} {rest : List Position} {leaf : EffectLeaf} {leaves : List EffectLeaf}
  {here there : List ManaType} {paused paused' : Bool}

/-- What leaves its player's Summons where they stand. -/
theorem Walk.aside {leaves' : List EffectLeaf} (h : Walk s c slot rest leaves' here there paused)
    (hsub : ∀ leaf ∈ leaves, leaf ∈ leaves') (hstands : (s.player c).Stands (t.player c))
    (hcards : t.cards = s.cards) (hpaused : paused' = false → t.pending = none) (hasked : AskedMana t) :
    Walk t c slot rest leaves here there paused' := by
  have htypes : ∀ p, Upkeep.summonTypes t.cards (t.player c) p =
      Upkeep.summonTypes s.cards (s.player c) p := by
    intro p
    unfold Upkeep.summonTypes
    rw [hcards]
    have hp := hstands p
    generalize (s.player c).summonAt p = x at hp
    generalize (t.player c).summonAt p = y at hp
    cases hp with
    | none => rfl
    | some same => simp only [Upkeep.producedTypes, same.chain]
  have hoccupied : ∀ p, ((t.player c).summonAt p).isSome = ((s.player c).summonAt p).isSome := by
    intro p
    have hp := hstands p
    generalize (s.player c).summonAt p = x at hp
    generalize (t.player c).summonAt p = y at hp
    cases hp <;> rfl
  obtain ⟨hswap, hmove⟩ := valid_of_occupancy hoccupied slot rest
  refine ⟨(htypes _).trans h.here, (htypes _).trans h.there, hpaused, hasked, fun hm => ?_,
    fun hm => ?_⟩
  · rw [hswap]
    exact h.swap (hsub _ hm)
  · rw [hmove]
    exact h.move (hsub _ hm)

/-- An exchange of the named slot with Main. -/
theorem Walk.swapped {x y : SummonInstance}
    (h : Walk s c slot rest (.swapPositions :: leaves) here there paused)
    (hmain : (s.player c).main = some x) (hbench : (s.player c).bench.get slot = some y)
    (hasked : AskedMana (swapBoard s c slot x y).1) :
    Walk (swapBoard s c slot x y).1 c slot rest leaves there here paused := by
  have hplayer : (swapBoard s c slot x y).1.player c = exchange (s.player c) slot x y := by
    simp only [swapBoard, GameState.pushBack_player, GameState.player_setPlayer_self]
  have hhere : (exchange (s.player c) slot x y).summonAt (.bench slot) = some x := by
    simp only [exchange, PlayerState.summonAt_bench, Bench.get_set_self]
  have hthere : (exchange (s.player c) slot x y).summonAt .main = some y := rfl
  have hoccupied : ∀ p, ((exchange (s.player c) slot x y).summonAt p).isSome =
      ((s.player c).summonAt p).isSome := by
    intro p
    cases p with
    | main =>
        rw [hthere, PlayerState.summonAt_main, hmain]
        rfl
    | bench r =>
        by_cases hr : r = slot
        · subst hr
          rw [hhere, PlayerState.summonAt_bench, hbench]
          rfl
        · simp only [exchange, PlayerState.summonAt_bench]
          rw [Bench.get_set_of_ne _ hr]
  obtain ⟨hswap, hmove⟩ := valid_of_occupancy hoccupied slot rest
  refine ⟨?_, ?_, h.paused, hasked, fun hm => ?_, fun hm => ?_⟩
  · rw [hplayer, ← h.there]
    simp only [Upkeep.summonTypes, hhere, PlayerState.summonAt_main, hmain]
    rfl
  · rw [hplayer, ← h.here]
    simp only [Upkeep.summonTypes, hthere, PlayerState.summonAt_bench, hbench]
    rfl
  · rw [hplayer, hswap]
    exact h.swap (List.mem_cons_of_mem _ hm)
  · rw [hplayer, hmove]
    exact h.move (List.mem_cons_of_mem _ hm)

/-- **The leaves of a Skill** ask for the Mana of a Summon that is there when they are done, unless
they strand it. -/
theorem Walk.run {source : EffectSource}
    (h : applyLeaves s source (.bench slot :: rest) leaves = (t, es))
    (hadm : ∀ leaf ∈ leaves, Model.EffectContext.skill.admits leaf = true)
    (hw : Walk s source.controller slot rest leaves here there paused)
    (hclear : strands here there paused leaves = false) : AskedMana t := by
  induction leaves generalizing s t es here there paused with
  | nil =>
      cases h
      exact hw.asked
  | cons leaf leaves ih =>
      have hstep := applyLeaf_step s source (.bench slot :: rest) leaf
      have hrest : ∀ l ∈ leaves, Model.EffectContext.skill.admits l = true :=
        fun l hl => hadm l (List.mem_cons_of_mem _ hl)
      have hback : ∀ l ∈ leaves, l ∈ leaf :: leaves := fun _ => List.mem_cons_of_mem _
      -- what the walk and the leaf agree on, the leaves behind it carry on
      have hcarry : ∀ {here' there' : List ManaType} {paused' : Bool},
          leaf ≠ .moveSummon →
          Walk (applyLeaf s source (.bench slot :: rest) leaf).1 source.controller slot rest leaves
            here' there' paused' →
          strands here' there' paused' leaves = false → AskedMana t := by
        intro here' there' paused' hne hw' hclear'
        unfold applyLeaves at h
        simp only at h
        split at h
        · cases h
          exact ih rfl hrest hw' hclear'
        · rw [h] at hstep
          exact hstep.askedMana hne hw.asked
      have hcards : (applyLeaf s source (.bench slot :: rest) leaf).1.cards = s.cards := hstep.thins.1
      have hplain : leaf.moves = false → (∀ target, leaf ≠ .produceMana target) →
          strands here there paused leaves = false → AskedMana t := by
        intro hmoves hproduce hclear'
        have hne : leaf ≠ .moveSummon := by
          rintro rfl
          cases hmoves
        refine hcarry hne (hw.aside hback (hstep.stands hmoves _) hcards (fun hp => ?_)
          (hstep.askedMana hne hw.asked)) hclear'
        rcases hstep.pending with heq | ⟨_, ⟨target, rfl⟩, -, -⟩
        · rw [heq]
          exact hw.paused hp
        · exact absurd rfl (hproduce target)
      cases leaf with
      | moveSummon =>
          -- nothing has been asked about the slot that is vacated
          have hnone : s.pending = none := hw.paused hclear
          obtain ⟨toSlot, rest', rfl, ⟨y, hy⟩, hto⟩ :=
            validMoveSummon_iff.mp (hw.move List.mem_cons_self)
          have hne : slot ≠ toSlot := by
            rintro rfl
            rw [hy] at hto
            cases hto
          have hmoved : (applyLeaf s source (.bench slot :: .bench toSlot :: rest') .moveSummon).1.pending =
                none ∧
              ((applyLeaf s source (.bench slot :: .bench toSlot :: rest') .moveSummon).1.player
                source.controller).bench.get slot = none := by
            simp only [applyLeaf, moveSummon, hto, hy]
            refine ⟨hnone, ?_⟩
            simp only [Option.isSome_none, Bool.false_eq_true, if_false, GameState.pushBack_player,
              GameState.player_setPlayer_self]
            rw [Bench.get_set_of_ne _ hne, Bench.get_set_self]
          refine AskedMana.of_none ?_
          unfold applyLeaves at h
          simp only at h
          split at h
          · cases h
            exact applyLeaves_vacated rfl hrest hmoved.2 hmoved.1
          · rw [h] at hmoved
            exact hmoved.1
      | swapPositions =>
          obtain ⟨⟨y, hy⟩, x, hx⟩ := validSwapPositions_iff.mp (hw.swap List.mem_cons_self)
          have heq : applyLeaf s source (.bench slot :: rest) .swapPositions =
              swapBoard s source.controller slot x y := by
            simp only [applyLeaf, swapPositions, hx, hy]
          have hasked := hstep.askedMana (by simp) hw.asked
          rw [heq] at hasked
          refine hcarry (by simp) ?_ hclear
          rw [heq]
          exact hw.swapped hx hy hasked
      | swapOpposingPositions =>
          refine hcarry (by simp) (hw.aside hback ?_ hcards (fun hp => ?_)
            (hstep.askedMana (by simp) hw.asked)) hclear
          · have hopposing : (applyLeaf s source (.bench slot :: rest)
                .swapOpposingPositions).1.player source.controller = s.player source.controller := by
              simp only [applyLeaf, swapOpposingPositions]
              split
              · rfl
              · split
                · rfl
                · split
                  · rfl
                  · simp only [swapBoard, GameState.pushBack_player]
                    rw [GameState.player_setPlayer_of_ne _ _ _ (PlayerId.opponent_ne _).symm]
            rw [hopposing]
            exact .refl _
          · rcases hstep.pending with heq | ⟨_, ⟨target, hleaf⟩, -, -⟩
            · rw [heq]
              exact hw.paused hp
            · cases hleaf
      | produceMana target =>
          refine hcarry (by simp) (hw.aside hback (hstep.stands rfl _) hcards (fun hp => ?_)
            (hstep.askedMana (by simp) hw.asked)) hclear
          have hadmits := hadm _ List.mem_cons_self
          cases target with
          | source => cases hadmits
          | selected =>
              obtain ⟨hunpaused, hfew⟩ := Bool.or_eq_false_iff.mp hp
              simp only [applyLeaf, effectPosition, List.head?_cons, produceManaLeaf]
              rw [produceMana_pending, hw.paused hunpaused]
              show (Upkeep.summonTypes s.cards (s.player source.controller) (.bench slot)).length < 2
              rw [hw.here]
              simpa using hfew
      | _ => exact hplain rfl (by simp) hclear

end

/-! ## One step -/

theorem mem_controlledSummons : x ∈ Upkeep.controlledSummons ps ↔ ∃ p, ps.summonAt p = some x := by
  unfold Upkeep.controlledSummons
  constructor
  · intro h
    rcases List.mem_append.mp h with h | h
    · exact ⟨.main, Option.mem_toList.mp h⟩
    · obtain ⟨slot, hslot⟩ := Bench.mem_summons.mp h
      exact ⟨.bench slot, hslot⟩
  · rintro ⟨p, hp⟩
    cases p with
    | main => exact List.mem_append_left _ (Option.mem_toList.mpr hp)
    | bench slot => exact List.mem_append_right _ (Bench.mem_summons.mpr ⟨slot, hp⟩)

theorem drainStep_askable (h : Resolution.drainStep s = some (t, es)) (hcards : s.cards.Authored)
    (hstill : StillStack s) : Askable t := by
  obtain ⟨hd, ⟨item, u, es', hst, rfl⟩ | ⟨-, item, work, -, hi⟩⟩ := drainStep_cases h
  · have hleaves : .moveSummon ∉ (itemLeaves (poppedStack s) item).2.2 := fun hmem => by
      cases itemLeaves_still (s := poppedStack s) hcards (hstill item (List.mem_of_getLast? hst.top))
        _ hmem
    have hasked : AskedMana u :=
      applyLeaves_askedMana hst.leaves hd.playing hleaves (.of_none hd.pending)
    refine (hasked.keep ?_ (fun c p hx => ?_)).askable
    · rw [hst.result, closeSegment_pending, placeItem_pending]
    · rw [hst.result, closeSegment_player]
      exact (placeItem_stands u item).occupied c p hx
  · have hnone : ∀ {u : GameState}, u.pending = s.pending → Askable u := by
      intro u hu
      exact (AskedMana.of_none (hu.trans hd.pending)).askable
    cases hi with
    | @paused c source t u ts ht =>
        intro d hd'
        cases hd'
        cases source with
        | summon p =>
            have htypes : Upkeep.summonTypes s.cards (s.player c) p = t :: u :: ts := ht
            exact occupied_of_types (s := s) (by rw [htypes]; simp)
        | player =>
            have hmem : t ∈ Upkeep.anchorTypes s.cards (s.player c) := by
              have hanchor : Upkeep.anchorTypes s.cards (s.player c) = t :: u :: ts := ht
              rw [hanchor]
              exact List.mem_cons_self
            obtain ⟨-, hany⟩ := List.mem_filter.mp hmem
            obtain ⟨x, hx, -⟩ := List.any_eq_true.mp hany
            obtain ⟨p, hp⟩ := mem_controlledSummons.mp hx
            exact ⟨p, Option.isSome_iff_exists.mpr ⟨x, hp⟩⟩
    | @prizeDue c hp =>
        intro d hd'
        cases hd'
        show (s.player c.opponent.opponent).prizes ≠ []
        rw [PlayerId.opponent_opponent]
        exact hp
    | @promotionDue c a b l hb =>
        intro d hd'
        cases hd'
        have hslot : a ∈ occupiedBenchSlots (s.player c) := by
          have hslots : occupiedBenchSlots (s.player c) = a :: b :: l := hb
          rw [hslots]
          exact List.mem_cons_self
        exact ⟨a, mem_occupiedBenchSlots.mp hslot⟩
    | fired ha hl =>
        have hleaves := abilityAt_admitted (s := poppedWork s work) hcards.triggersAdmitted ha
        refine (applyLeaves_askedMana hl hd.playing (fun hmem => ?_) (.of_none hd.pending)).askable
        cases hleaves _ hmem
    | @movement step c p =>
        exact hnone (markMainEntry_frame (poppedWork s work) step c p).2.2.2.2.1
    | _ => exact hnone rfl

theorem skillLeaves_eq {ability : EntityId} {top skill : Entity}
    (hx : (s.player c).summonAt p = some x) (htop : s.cards.get x.chain.top.defId = some top)
    (hskill : (top.all .skill).find? (fun e => e.id = ability) = some skill) :
    skillLeaves s c p ability = skill.all .effectLeaf := by
  unfold skillLeaves
  simp only [hx, htop, hskill]

/-- What a Skill begins with leaves everyone where they stand. -/
theorem skillBegun_stands (bank : ManaBank) (hx : (s.player c).summonAt p = some x) :
    Stands s (skillBegun s c p bank x) := by
  have hpaid : ({ s.player c with mana := bank } : PlayerState).summonAt p = some x :=
    (summonAt_mana (s.player c) bank p).trans hx
  have hexhausted : PlayerState.Stands { s.player c with mana := bank }
      ({ s.player c with mana := bank }.setAt p (some (Skills.exhaust x))) :=
    stands_setAt hpaid ⟨rfl, rfl, rfl⟩
  have hmana : (s.player c).Stands { s.player c with mana := bank } := stands_of_board rfl rfl
  exact .write (hmana.trans hexhausted)

theorem ActionStep.askable {a : GameAction} (h : ActionStep s a t es) (hs : s.status = .playing)
    (hcards : s.cards.Authored) (hask : Askable s) (hclear : strandsMana s a = false) :
    Askable t := by
  have hnone : ∀ {u : GameState}, u.pending = none → Askable u :=
    fun hu => (AskedMana.of_none hu).askable
  cases h with
  | played free _ _ _ _ _ => exact hnone free.pending
  | upgraded free _ _ _ _ _ _ _ _ _ => exact hnone free.pending
  | cast hp _ _ _ _ _ => exact hnone hp
  | @skill c p ability targets hint x top skill payment free hx _ htop hskill hvalid _ u es hl =>
      have hadm : ∀ leaf ∈ skill.all .effectLeaf,
          Model.EffectContext.skill.admits leaf = true :=
        (hcards top (CardSet.get_mem htop)).skill (List.mem_of_find?_eq_some hskill)
      have hbegun := skillBegun_stands (s := s) payment.bank hx
      -- only a Bench slot can be vacated
      by_cases hmove : .moveSummon ∈ skill.all .effectLeaf
      · have hmoves : Skills.validMoveSummon (s.player c) targets = true := hvalid _ hmove
        cases targets with
        | nil => cases hmoves
        | cons first rest =>
            cases first with
            | main => cases hmoves
            | bench slot =>
                simp only [strandsMana, skillLeaves_eq hx htop hskill] at hclear
                have hwalk : Walk s c slot rest (skill.all .effectLeaf)
                    (Upkeep.summonTypes s.cards (s.player c) (.bench slot))
                    (Upkeep.summonTypes s.cards (s.player c) .main) false :=
                  ⟨rfl, rfl, fun _ => free.pending, .of_none free.pending, fun hm => hvalid _ hm,
                    fun hm => hvalid _ hm⟩
                exact ((hwalk.aside (fun _ hm => hm) (hbegun c) rfl (fun _ => free.pending)
                  (.of_none free.pending)).run hl hadm hclear).askable
      · exact (applyLeaves_askedMana hl hs hmove (.of_none free.pending)).askable
  | retreated free _ _ _ => exact hnone free.pending
  | attacked free _ _ _ _ => exact hnone free.pending
  | turnEnded hp _ _ _ => exact hnone hp
  | passed hp _ => exact hnone hp
  | passedToStack hp _ _ => exact hnone hp
  | handedOver hp _ _ => exact hnone hp
  | converted hp _ _ _ => exact hnone hp
  | manaChosen _ _ => exact hnone rfl
  | promotionChosen _ _ => exact hnone rfl
  | prizeChosen _ _ => exact hnone rfl
  | resigned => exact hask

/-! ## Runs -/

/-- What a run keeps. -/
structure Prompted (s : GameState) : Prop where
  cards : s.cards.Authored
  formed : Formed s
  still : StillStack s
  askable : Askable s

/-- The promotion an opening leaves pending has somebody to promote. -/
theorem Opening.askable {cards : CardSet} (h : Opening cards s) : Askable s := by
  have hbenched : ∀ c, (s.player c).main = none →
      ∃ slot, ((s.player c).bench.get slot).isSome = true := by
    intro c hc
    obtain ⟨p, hp⟩ := h.inPlay c
    cases p with
    | main => exact absurd hc hp
    | bench slot => exact ⟨slot, Option.isSome_iff_ne_none.mpr hp⟩
  intro d hd
  rw [h.pending] at hd
  unfold Scenario.derivePending at hd
  split at hd
  · rename_i hone
    cases hd
    exact hbenched .one (Option.isNone_iff_eq_none.mp hone)
  · split at hd
    · rename_i htwo
      cases hd
      exact hbenched .two (Option.isNone_iff_eq_none.mp htwo)
    · cases hd

theorem Opening.stillStack {cards : CardSet} (h : Opening cards s) : StillStack s := by
  intro item hitem
  rw [h.stack] at hitem
  cases hitem

theorem run_prompted {cards : CardSet} {scenario : Scenario} {start : GameState}
    {tr : List (Entry GameState GameAction GameEvent)}
    (hstart : fromScenario cards scenario = .ok start) (hcards : cards.Authored)
    (hr : engine.Run start tr s)
    (hclear : ∀ x ∈ tr, ∀ a ∈ x.input, strandsMana x.before a = false) : Prompted s := by
  have hopen := opening_of_fromScenario hstart
  refine hr.invariant (G := fun x => ∀ a ∈ x.input, strandsMana x.before a = false) hopen.rest
    ⟨by rw [hopen.cards]; exact hcards, start_formed hstart, hopen.stillStack, hopen.askable⟩
    ?_ ?_ hclear
  · intro s t a es hI _ ha hG
    obtain ⟨hs, hst, -⟩ := accept_step ha
    exact ⟨by rw [(hst.thins hs).1]; exact hI.cards, hI.formed.action hs hst,
      hI.still.action hs hst, hst.askable hs hI.cards hI.askable (hG a rfl)⟩
  · intro s t es hI hn _
    exact ⟨by rw [(drainStep_thins hn).1]; exact hI.cards, hI.formed.drainStep hn,
      hI.still.drainStep hI.cards.triggersAdmitted hn, drainStep_askable hn hI.cards hI.still⟩

/-! ## What can be done -/

/-- The kind of action that answers a decision. -/
def PendingInput.answeredBy : PendingInput → GameAction → Prop
  | .manaProduction c _, a => ∃ t, a = .chooseManaType c t
  | .promotion c, a => ∃ slot, a = .choosePromotion c slot
  | .prizePick c, a => ∃ i, a = .choosePrize c i

/-- What a handler accepts, `apply` accepts: the drain behind it comes to an end. -/
theorem accepted_of_dispatch {a : GameAction} {o : ActionOutcome} (hs : s.status = .playing)
    (hcards : s.cards.Authored) (hactor : a.actor = Apply.requiredActor s)
    (hresign : ∀ c, a ≠ .resign c) (hd : Apply.dispatch s a = .ok o) : ∃ o', Accepted s a o' := by
  have hhandle : Apply.handle s a = .ok o := by
    unfold Apply.handle
    rw [hs]
    cases a with
    | resign c => exact absurd rfl (hresign c)
    | _ => simp only [Apply.checkActor, hactor, if_true, hd]
  obtain ⟨-, hst, -⟩ := accept_step (engine_accept_eq_some.mpr hhandle)
  obtain ⟨tr, t, hsettles⟩ := settles_of_admitted (s := o.state)
    (by rw [(hst.thins hs).1]; exact hcards.triggersAdmitted)
  have hdrain : Resolution.drain (tr.length + 1) o.state = some (t, facts tr) :=
    Machine.settle_of_settles hsettles
  refine ⟨⟨t, o.events ++ facts tr⟩, tr.length + 1, ?_⟩
  unfold apply
  rw [hhandle]
  cases a with
  | resign c => exact absurd rfl (hresign c)
  | _ => simp only [hdrain, Option.map_some]

/-- **A decision has an answer.** -/
theorem Prompted.answer (h : Prompted s) (hs : s.status = .playing) {d : PendingInput}
    (hd : s.pending = some d) :
    ∃ a o, d.answeredBy a ∧ a.actor = Apply.pendingActor d ∧ Accepted s a o := by
  have hrequired : Apply.requiredActor s = Apply.pendingActor d := by
    unfold Apply.requiredActor
    rw [hd]
  have hasked := h.askable d hd
  cases d with
  | manaProduction c source =>
      have htypes : ∃ t, t ∈ Upkeep.availableTypes s.cards (s.player c) source := by
        cases source with
        | summon p =>
            obtain ⟨x, hx⟩ := Option.isSome_iff_exists.mp hasked
            obtain ⟨t, ht⟩ := List.exists_mem_of_ne_nil _ (h.formed.producedTypes h.cards hx)
            refine ⟨t, ?_⟩
            simp only [Upkeep.availableTypes, Upkeep.summonTypes, hx]
            exact ht
        | player =>
            obtain ⟨p, hp⟩ := hasked
            obtain ⟨x, hx⟩ := Option.isSome_iff_exists.mp hp
            obtain ⟨t, ht⟩ := List.exists_mem_of_ne_nil _ (h.formed.producedTypes h.cards hx)
            refine ⟨t, List.mem_filter.mpr ⟨by cases t <;> simp, ?_⟩⟩
            exact List.any_eq_true.mpr
              ⟨x, mem_controlledSummons.mpr ⟨p, hx⟩, List.contains_iff_mem.mpr ht⟩
      obtain ⟨t, ht⟩ := htypes
      have hdispatch : ∃ o, Apply.dispatch s (.chooseManaType c t) = .ok o := by
        simp [Apply.dispatch, Turn.chooseManaType, hd, ht]
      obtain ⟨o, ho⟩ := hdispatch
      obtain ⟨o', ho'⟩ := accepted_of_dispatch (a := .chooseManaType c t) hs h.cards hrequired.symm
        (by simp) ho
      exact ⟨_, o', ⟨t, rfl⟩, rfl, ho'⟩
  | promotion c =>
      obtain ⟨slot, hslot⟩ := hasked
      have hdispatch : ∃ o, Apply.dispatch s (.choosePromotion c slot) = .ok o := by
        have hsome : ((s.player c).bench.get slot).isNone = false := by
          rw [← Option.not_isSome, hslot]
          rfl
        simp [Apply.dispatch, answerPromotion, hd, hsome]
      obtain ⟨o, ho⟩ := hdispatch
      obtain ⟨o', ho'⟩ := accepted_of_dispatch (a := .choosePromotion c slot) hs h.cards
        hrequired.symm (by simp) ho
      exact ⟨_, o', ⟨slot, rfl⟩, rfl, ho'⟩
  | prizePick c =>
      have hdispatch : ∃ o, Apply.dispatch s (.choosePrize c 0) = .ok o := by
        obtain ⟨card, rest, hprizes⟩ := List.exists_cons_of_ne_nil hasked
        simp [Apply.dispatch, answerPrize, hd, hprizes]
      obtain ⟨o, ho⟩ := hdispatch
      obtain ⟨o', ho'⟩ := accepted_of_dispatch (a := .choosePrize c 0) hs h.cards hrequired.symm
        (by simp) ho
      exact ⟨_, o', ⟨0, rfl⟩, rfl, ho'⟩

/-- Where nobody is asked, Priority is passed or the turn is ended. -/
theorem move_of_idle (hcards : s.cards.Authored) (hs : s.status = .playing)
    (hpending : s.pending = none) (hphase : s.turn.window = none → s.turn.phase ≠ .upkeep) :
    ∃ a o, a.actor = Apply.requiredActor s ∧ (∀ c, a ≠ .resign c) ∧ Accepted s a o := by
  cases hwindow : s.turn.window with
  | some window =>
      have hrequired : Apply.requiredActor s = window.holder := by
        simp [Apply.requiredActor, hpending, hwindow]
      have hdispatch : ∃ o, Apply.dispatch s (.passPriority window.holder) = .ok o := by
        simp only [Apply.dispatch, Stack.pass, hpending, hwindow]
        split
        · rename_i hsome
          cases hsome
        · split
          · rename_i hne
            exact absurd rfl hne
          · split
            · split <;> exact ⟨_, rfl⟩
            · exact ⟨_, rfl⟩
      obtain ⟨o, ho⟩ := hdispatch
      obtain ⟨o', ho'⟩ := accepted_of_dispatch (a := .passPriority window.holder) hs hcards
        hrequired.symm (by simp) ho
      exact ⟨.passPriority window.holder, o', hrequired.symm, by simp, ho'⟩
  | none =>
      have hrequired : Apply.requiredActor s = s.turn.activePlayer := by
        simp [Apply.requiredActor, hpending, hwindow]
      have hdispatch : ∃ o, Apply.dispatch s (.endTurn s.turn.activePlayer) = .ok o := by
        have hmain : s.turn.phase = .main ∨ s.turn.phase = .combat := by
          cases hp : s.turn.phase with
          | upkeep => exact absurd hp (hphase hwindow)
          | main => exact .inl rfl
          | combat => exact .inr rfl
        rcases hmain with hp | hp <;> simp [Apply.dispatch, Turn.endTurn, hpending, hwindow, hp]
      obtain ⟨o, ho⟩ := hdispatch
      obtain ⟨o', ho'⟩ := accepted_of_dispatch (a := .endTurn s.turn.activePlayer) hs hcards
        hrequired.symm (by simp) ho
      exact ⟨.endTurn s.turn.activePlayer, o', hrequired.symm, by simp, ho'⟩

end

/-- **A move is left.** Over a loaded set, where no Skill strands the choice of Mana it asks for, the
player to act in a Playing state has a move beside a resignation, and a pending decision has an answer. -/
theorem move_left {newV5 : Vector UInt8 16 → String → String} {decoded : Dto.Set}
    {loaded : LoadedSet} {scenario : Scenario} {start s : GameState}
    {tr : List (Entry GameState GameAction GameEvent)} (hload : load newV5 decoded = .ok loaded)
    (hstart : fromScenario loaded.cards scenario = .ok start) (hr : engine.Run start tr s)
    (hclear : ∀ x ∈ tr, ∀ a ∈ x.input, strandsMana x.before a = false)
    (hs : s.status = .playing) :
    (∃ a o, a.actor = Apply.requiredActor s ∧ (∀ c, a ≠ .resign c) ∧ Accepted s a o) ∧
      ∀ d, s.pending = some d →
        ∃ a o, d.answeredBy a ∧ a.actor = Apply.pendingActor d ∧ Accepted s a o := by
  have hopen := opening_of_fromScenario hstart
  have hprompted := run_prompted hstart (authored_of_load hload) hr hclear
  refine ⟨?_, fun d hd => hprompted.answer hs hd⟩
  cases hpending : s.pending with
  | none =>
      refine move_of_idle hprompted.cards hs hpending (fun hwindow => ?_)
      have hcoherent := (hopen.run_coherent hr).1
      exact (hcoherent.idle hs (hr.rest hopen.rest) hpending hwindow).2.2.2
  | some d =>
      obtain ⟨a, o, hanswer, hactor, ho⟩ := hprompted.answer hs hpending
      refine ⟨a, o, ?_, fun c hc => ?_, ho⟩
      · rw [hactor]
        unfold Apply.requiredActor
        rw [hpending]
      · subst hc
        cases d with
        | manaProduction c' source =>
            obtain ⟨t, ht⟩ := hanswer
            cases ht
        | promotion c' =>
            obtain ⟨slot, hslot⟩ := hanswer
            cases hslot
        | prizePick c' =>
            obtain ⟨i, hi⟩ := hanswer
            cases hi

open Specimen in
/-- Player One's next turn, in which several Types of Mana can be produced. -/
theorem move_left_upkeep :
    ∃ l start tr s, load newV5 (document [drifter]) = .ok l ∧
      fromScenario l.cards
        (Fixtures.facing { Fixtures.lone (inPlay 1 "drifter") with deck := [card 3 "drifter"] }
          { Fixtures.lone (inPlay 2 "drifter") with deck := [card 4 "drifter"] }) = .ok start ∧
      engine.Run start tr s ∧ s.pending = some (.manaProduction .two .player) ∧
        ∃ a o, a.actor = .two ∧ Accepted s a o := by
  have hdemo : (trace [drifter]
      (Fixtures.facing { Fixtures.lone (inPlay 1 "drifter") with deck := [card 3 "drifter"] }
        { Fixtures.lone (inPlay 2 "drifter") with deck := [card 4 "drifter"] })
      [.endTurn .one, .passPriority .two, .passPriority .one]).map (fun r =>
        decide ((∀ x ∈ r.2.2.1, ∀ a ∈ x.input, strandsMana x.before a = false) ∧
          r.2.2.2.status = .playing ∧
            r.2.2.2.pending = some (.manaProduction .two .player))) = some true := by
    decide +kernel
  obtain ⟨⟨l, start, tr, s⟩, hr, hv⟩ := Option.map_eq_some_iff.mp hdemo
  obtain ⟨hclear, hs, hpending⟩ := of_decide_eq_true hv
  obtain ⟨hload, hstart, hrun⟩ := run_of_trace hr
  obtain ⟨a, o, -, hactor, ho⟩ := (move_left hload hstart hrun hclear hs).2 _ hpending
  exact ⟨l, start, tr, s, hload, hstart, hrun, hpending, a, o, hactor, ho⟩

open Specimen in
/-- The Skill produces Mana of a benched Summon of two Types and then moves it: nothing but a resignation
is accepted any more. -/
theorem no_move_left :
    ∃ l start tr s, load newV5 (document [drifter]) = .ok l ∧
      fromScenario l.cards
        (Fixtures.facing (Fixtures.benching (Fixtures.lone (inPlay 1 "drifter")) .first
          (inPlay 2 "drifter")) (Fixtures.lone (inPlay 3 "drifter"))) = .ok start ∧
      engine.Run start tr s ∧ s.status = .playing ∧
        ∀ a o, Accepted s a o → ∃ c, a = .resign c := by
  have hdemo : (trace [drifter]
      (Fixtures.facing (Fixtures.benching (Fixtures.lone (inPlay 1 "drifter")) .first
        (inPlay 2 "drifter")) (Fixtures.lone (inPlay 3 "drifter")))
      [.activateSkill .one .main (skillId "drifter" "shift") [.bench .first, .bench .second]
        none]).map
        (fun r => decide (r.2.2.2.status = .playing ∧
          r.2.2.2.pending = some (.manaProduction .one (.summon (.bench .first))) ∧
            (r.2.2.2.player .one).bench.first = none)) = some true := by
    decide +kernel
  obtain ⟨⟨l, start, tr, s⟩, hr, hv⟩ := Option.map_eq_some_iff.mp hdemo
  obtain ⟨hs, hpending, hslot⟩ := of_decide_eq_true hv
  obtain ⟨hload, hstart, hrun⟩ := run_of_trace hr
  refine ⟨l, start, tr, s, hload, hstart, hrun, hs, fun a o ho => ?_⟩
  obtain ⟨tr', ⟨t, es, _, ha, -, -⟩, -⟩ := accepted_iff.mp ho
  obtain ⟨-, hst, -⟩ := accept_step ha
  have htypes : Upkeep.availableTypes s.cards (s.player .one) (.summon (.bench .first)) = [] := by
    have hnone : (s.player .one).summonAt (.bench .first) = none := hslot
    simp only [Upkeep.availableTypes, Upkeep.summonTypes, hnone]
  have hpending : s.pending = some (.manaProduction .one (.summon (.bench .first))) := hpending
  have hasked : s.pending ≠ none := by simp [hpending]
  cases hst with
  | resigned => exact ⟨_, rfl⟩
  | played free _ _ _ _ _ => exact absurd free.pending hasked
  | upgraded free _ _ _ _ _ _ _ _ _ => exact absurd free.pending hasked
  | cast hp _ _ _ _ _ => exact absurd hp hasked
  | skill free _ _ _ _ _ _ _ => exact absurd free.pending hasked
  | retreated free _ _ _ => exact absurd free.pending hasked
  | attacked free _ _ _ _ => exact absurd free.pending hasked
  | turnEnded hp _ _ _ => exact absurd hp hasked
  | passed hp _ => exact absurd hp hasked
  | passedToStack hp _ _ => exact absurd hp hasked
  | handedOver hp _ _ => exact absurd hp hasked
  | converted hp _ _ _ => exact absurd hp hasked
  | manaChosen hp ht =>
      rw [hpending] at hp
      cases hp
      rw [htypes] at ht
      cases ht
  | promotionChosen hp _ =>
      rw [hpending] at hp
      cases hp
  | prizeChosen hp _ =>
      rw [hpending] at hp
      cases hp

end Summoners
