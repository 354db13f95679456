import Summoners.Cards.Authored
import Summoners.Steps.Boards

/-! # What stands where

Three leaves move a Summon to another position, and the loader admits them in Skills only. So what a
Trigger, an Attack or a Spell does leaves every chain at its position, and with it every printed
ability that is read off a position. Besides, a trigger queues nothing.
-/

namespace Summoners
set_option autoImplicit false

open Effects

/-- Every Trigger ability prints only the leaves the loader admits in one. -/
def CardSet.TriggersAdmitted (cards : CardSet) : Prop :=
  ∀ e ∈ cards.entities, ∀ ability ∈ e.all .trigger, ability.PrintsIn .trigger

theorem CardSet.Authored.triggersAdmitted {cards : CardSet} (h : cards.Authored) :
    cards.TriggersAdmitted :=
  fun e he _ ht => (h e he).trigger ht

section
variable {s t u : GameState} {es : List GameEvent}

/-! ## Abilities read off a position -/

theorem cardAt_mem {c : PlayerId} {p : Position} {e : Entity}
    (h : Triggers.cardAt s c p = some e) : e ∈ s.cards.entities := by
  unfold Triggers.cardAt at h
  split at h
  · cases h
  · exact CardSet.get_mem h

theorem abilityAt_admitted {c : PlayerId} {p : Position} {ability : EntityId} {respondable : Bool}
    {effects : List EffectLeaf} (h : s.cards.TriggersAdmitted)
    (ha : Triggers.abilityAt s c p ability = some (respondable, effects)) :
    ∀ leaf ∈ effects, Model.EffectContext.trigger.admits leaf = true := by
  unfold Triggers.abilityAt at ha
  split at ha
  · cases ha
  · rename_i e he
    split at ha
    · cases ha
    · rename_i t ht
      cases ha
      exact h e (cardAt_mem he) t (List.mem_of_find?_eq_some ht)

/-- An ability that discovery found is found again where the same card is printed. -/
theorem abilityAt_of_matching {c : PlayerId} {p : Position} {ev : TriggerEvent} {ability : EntityId}
    (h : ability ∈ Triggers.matchingAbilities s c p ev) :
    ∃ trigger, Triggers.abilityAt s c p ability = some trigger := by
  unfold Triggers.matchingAbilities at h
  unfold Triggers.abilityAt
  cases hcard : Triggers.cardAt s c p with
  | none =>
      rw [hcard] at h
      cases h
  | some card =>
      rw [hcard] at h
      obtain ⟨t, ht, rfl⟩ := List.mem_map.mp h
      have hfound : ((card.all .trigger).find? (fun entity => entity.id = t.id)).isSome = true := by
        rw [List.find?_isSome]
        exact ⟨t, (List.mem_filter.mp ht).1, by simp⟩
      obtain ⟨found, hf⟩ := Option.isSome_iff_exists.mp hfound
      simp only [hf]
      exact ⟨_, rfl⟩

/-- Discovery reads a Summon that is there. -/
theorem summonAt_of_matching {c : PlayerId} {p : Position} {ev : TriggerEvent} {ability : EntityId}
    (h : ability ∈ Triggers.matchingAbilities s c p ev) : ∃ x, (s.player c).summonAt p = some x := by
  cases hx : (s.player c).summonAt p with
  | none =>
      simp only [Triggers.matchingAbilities, Triggers.cardAt, hx] at h
      cases h
  | some x => exact ⟨x, rfl⟩

/-! ## Triggers queue nothing -/

theorem LeafStep.work_of_trigger {source : EffectSource} {targets : List Position}
    {leaf : EffectLeaf} (h : LeafStep s source targets leaf t es)
    (hleaf : Model.EffectContext.trigger.admits leaf = true) : t.work = s.work := by
  cases h with
  | hit _ _ _ hdeal =>
      obtain ⟨effect, rfl⟩ := hdeal
      cases hleaf
  | moved _ _ hmove _ =>
      subst hmove
      cases hleaf
  | exchanged _ _ hswap _ =>
      obtain ⟨rfl, -⟩ | ⟨rfl, -, -⟩ := hswap
      · cases hleaf
      · cases hleaf
  | _ => rfl

theorem applyLeaves_work_of_trigger {source : EffectSource} {targets : List Position}
    {leaves : List EffectLeaf} (h : applyLeaves s source targets leaves = (t, es))
    (hs : s.status = .playing)
    (hleaves : ∀ leaf ∈ leaves, Model.EffectContext.trigger.admits leaf = true) :
    t.work = s.work :=
  applyLeaves_rel (R := fun s _ t => t.work = s.work) h hs (fun _ => rfl)
    (fun _ h h' => h'.trans h) (fun hmem _ h => h.work_of_trigger (hleaves _ hmem))

/-! ## The same Summons at the same positions -/

/-- The same Summon, or nobody, at every position. -/
def PlayerState.Stands (ps qs : PlayerState) : Prop :=
  ∀ p, Option.Rel SameSummon (ps.summonAt p) (qs.summonAt p)

def Stands (s t : GameState) : Prop := ∀ q, (s.player q).Stands (t.player q)

section
variable {ps qs rs : PlayerState}

theorem PlayerState.Stands.refl (ps : PlayerState) : ps.Stands ps := by
  intro p
  cases ps.summonAt p with
  | none => exact .none
  | some x => exact .some (.refl x)

theorem PlayerState.Stands.trans (h : ps.Stands qs) (h' : qs.Stands rs) : ps.Stands rs := by
  intro p
  have hp := h p
  have hp' := h' p
  cases hx : ps.summonAt p with
  | none =>
      rw [hx] at hp
      generalize qs.summonAt p = y at hp hp'
      cases hp
      exact hp'
  | some x =>
      rw [hx] at hp
      generalize qs.summonAt p = y at hp hp'
      generalize rs.summonAt p = z at hp'
      cases hp with
      | some hxy =>
          cases hp' with
          | some hyz => exact .some (hxy.trans hyz)

theorem stands_of_board (hmain : qs.main = ps.main) (hbench : qs.bench = ps.bench) :
    ps.Stands qs := by
  intro p
  have heq : qs.summonAt p = ps.summonAt p := by
    cases p with
    | main => exact hmain
    | bench slot => exact congrArg (fun b => Bench.get b slot) hbench
  rw [heq]
  exact PlayerState.Stands.refl ps p

theorem stands_setAt {p : Position} {x y : SummonInstance} (hx : ps.summonAt p = some x)
    (same : SameSummon x y) : ps.Stands (ps.setAt p (some y)) := by
  intro q
  by_cases hq : q = p
  · subst hq
    rw [PlayerState.summonAt_setAt_self, hx]
    exact .some same
  · rw [PlayerState.summonAt_setAt_of_ne _ _ _ hq]
    exact PlayerState.Stands.refl ps q

theorem stands_map {f : SummonInstance → SummonInstance} (hf : ∀ x, SameSummon x (f x)) :
    ps.Stands { ps with main := ps.main.map f, bench := ps.bench.mapSummons f } := by
  have hmap : ∀ x : Option SummonInstance, Option.Rel SameSummon x (x.map f) := by
    intro x
    cases x with
    | none => exact .none
    | some x => exact .some (hf x)
  intro p
  cases p with
  | main => exact hmap _
  | bench slot =>
      rw [PlayerState.summonAt_bench, PlayerState.summonAt_bench, Bench.get_mapSummons]
      exact hmap _

theorem stands_bank (ps : PlayerState) (t : ManaType) : ps.Stands (Upkeep.bank ps t) := by
  cases t <;> exact stands_of_board rfl rfl

theorem PlayerState.Stands.summonAt (h : ps.Stands qs) {p : Position} {x : SummonInstance}
    (hx : ps.summonAt p = some x) : ∃ y, qs.summonAt p = some y ∧ SameSummon x y := by
  have hp := h p
  rw [hx] at hp
  generalize qs.summonAt p = y at hp
  cases hp with
  | some same => exact ⟨_, rfl, same⟩

end

theorem Stands.refl (s : GameState) : Stands s s := fun _ => .refl _

theorem Stands.trans (h : Stands s t) (h' : Stands t u) : Stands s u :=
  fun q => (h q).trans (h' q)

theorem Stands.write {c : PlayerId} {ps : PlayerState} (h : (s.player c).Stands ps) :
    Stands s (s.setPlayer c ps) := by
  intro q
  rw [GameState.player_setPlayer]
  split
  · rename_i hq
    rw [hq]
    exact h
  · exact .refl _

/-- The card read off a position is the card of the Summon that stands there. -/
theorem Stands.cardAt (h : Stands s t) (hcards : t.cards = s.cards) (q : PlayerId) (p : Position) :
    Triggers.cardAt t q p = Triggers.cardAt s q p := by
  unfold Triggers.cardAt
  rw [hcards]
  have hp := h q p
  generalize (s.player q).summonAt p = x at hp
  generalize (t.player q).summonAt p = y at hp
  cases hp with
  | none => rfl
  | some same =>
      simp only [same.chain]

theorem Stands.matchingAbilities (h : Stands s t) (hcards : t.cards = s.cards) (q : PlayerId)
    (p : Position) (ev : TriggerEvent) :
    Triggers.matchingAbilities t q p ev = Triggers.matchingAbilities s q p ev := by
  unfold Triggers.matchingAbilities
  rw [h.cardAt hcards]

/-! ## Leaves that move nobody -/

def EffectLeaf.moves : EffectLeaf → Bool
  | .moveSummon | .swapPositions | .swapOpposingPositions => true
  | _ => false

theorem moves_of_castable {leaf : EffectLeaf} (h : castable leaf) : leaf.moves = false := by
  cases leaf <;> first | rfl | (rcases h with h | h | h <;> cases h)

theorem moves_of_attack {leaf : EffectLeaf} (h : Model.EffectContext.attack.admits leaf = true) :
    leaf.moves = false := by
  cases leaf <;> first | rfl | cases h

theorem moves_of_trigger {leaf : EffectLeaf} (h : Model.EffectContext.trigger.admits leaf = true) :
    leaf.moves = false := by
  cases leaf <;> first | rfl | cases h

theorem LeafStep.stands {source : EffectSource} {targets : List Position} {leaf : EffectLeaf}
    (h : LeafStep s source targets leaf t es) (hleaf : leaf.moves = false) : Stands s t := by
  cases h with
  | quiet _ => exact .refl s
  | touched hx same _ _ _ => exact .write (stands_setAt hx same)
  | hit hx same _ _ _ => exact Stands.write (stands_setAt hx same)
  | zones hz _ => exact .write (stands_of_board hz.main hz.bench)
  | drewOut hz _ => exact Stands.write (stands_of_board hz.main hz.bench)
  | moved _ _ hmove _ =>
      subst hmove
      cases hleaf
  | exchanged _ _ hswap _ =>
      obtain ⟨rfl, -⟩ | ⟨rfl, -, -⟩ := hswap
      · cases hleaf
      · cases hleaf
  | produced _ _ => exact .write (stands_bank _ _)
  | paused _ _ => exact .refl s

theorem applyLeaves_stands {source : EffectSource} {targets : List Position}
    {leaves : List EffectLeaf} (h : applyLeaves s source targets leaves = (t, es))
    (hs : s.status = .playing) (hleaves : ∀ leaf ∈ leaves, leaf.moves = false) : Stands s t :=
  applyLeaves_rel (R := fun s _ t => Stands s t) h hs Stands.refl (fun _ h h' => h.trans h')
    (fun hmem _ h => h.stands (hleaves _ hmem))

/-! ## The Stack -/

/-- A Trigger on the Stack carries the leaves it was fired with. -/
def StackItem.Still : StackItem → Prop
  | .trigger _ _ _ _ _ effects => ∀ leaf ∈ effects, leaf.moves = false
  | _ => True

/-- No item of the Stack carries a leaf that moves a Summon. -/
def StillStack (s : GameState) : Prop := ∀ item ∈ s.stack, item.Still

theorem itemLeaves_still (hcards : s.cards.Authored) {item : StackItem} (hitem : item.Still) :
    ∀ leaf ∈ (itemLeaves s item).2.2, leaf.moves = false := by
  cases item with
  | attack attacker target =>
      unfold itemLeaves
      simp only
      split
      · simp
      · rename_i ability effects he
        unfold Resolution.attackerEffects at he
        split at he
        · cases he
        · split at he
          · cases he
          · rename_i entity hentity
            split at he
            · cases he
            · rename_i attack hattack
              cases he
              have hprints := (hcards entity (CardSet.get_mem hentity)).attack hattack
              exact fun leaf hleaf => moves_of_attack (hprints leaf hleaf)
  | spell caster card targets =>
      simp only [itemLeaves, Resolution.spellEffects]
      split
      · simp
      · rename_i entity hentity
        have hauthored := hcards entity (CardSet.get_mem hentity)
        exact fun leaf hleaf => moves_of_castable (hauthored.effect hleaf)
  | trigger controller source ability ev targets effects => exact hitem

/-! ## The steps -/

/-- The items that take a Summon off its position. -/
def WorkItem.unseats : WorkItem → Bool
  | .discardDestroyedChain _ | .promoteBenchSummon _ => true
  | _ => false

/-- The actions that put a Summon on a position, or replace the card on top. -/
def GameAction.reseats : GameAction → Bool
  | .playSummon _ _ _ | .upgradeSummon _ _ _ | .activateSkill _ _ _ _ _ | .retreat _ _ _
  | .choosePromotion _ _ => true
  | _ => false

theorem markMainEntry_stands (s : GameState) (step : MovementStep) (c : PlayerId) (p : Position) :
    Stands s (Triggers.markMainEntry s step c p) := by
  unfold Triggers.markMainEntry
  split
  · rename_i x hx
    have hentered (y : SummonInstance) (same : SameSummon x y) :
        (s.player c).Stands { s.player c with main := some y } := stands_setAt (p := .main) hx same
    exact .write (hentered _ ⟨rfl, rfl, rfl⟩)
  · exact .refl s

theorem ItemStep.stands {item : WorkItem} (h : ItemStep s item t es) (hs : s.status = .playing)
    (hcards : s.cards.TriggersAdmitted) (hitem : item.unseats = false) : Stands s t := by
  cases h with
  | readied => exact .write (stands_map (fun _ => ⟨rfl, rfl, rfl⟩))
  | drew _ => exact .write (stands_of_board rfl rfl)
  | produced _ => exact .write (stands_bank _ _)
  | discarded _ _ => cases hitem
  | lossRecorded => exact .write (stands_of_board rfl rfl)
  | promoted _ _ => cases hitem
  | movement => exact markMainEntry_stands s _ _ _
  | fired ha hl =>
      exact applyLeaves_stands hl hs (fun leaf hleaf =>
        moves_of_trigger (abilityAt_admitted hcards ha leaf hleaf))
  | _ => exact .refl s

theorem placeItem_stands (s : GameState) (item : StackItem) : Stands s (placeItem s item) := by
  intro q
  rcases placeItem_player s item q with h | ⟨_, _, _, _, _, h | h⟩ <;> rw [h]
  · exact .refl _
  · exact stands_of_board rfl rfl
  · exact stands_of_board rfl rfl

/-- **An iteration of the drain** leaves every Summon where it stands, unless it executes an item that
discards or promotes one. -/
theorem drainStep_stands (h : Resolution.drainStep s = some (t, es)) (hcards : s.cards.Authored)
    (hstack : StillStack s) (hitem : ∀ item, nextWork s = some item → item.unseats = false) :
    Stands s t := by
  obtain ⟨hd, ⟨item, u, es', hst, rfl⟩ | ⟨hlow, item, work, hwork, hi⟩⟩ := drainStep_cases h
  · have hstill : item.Still := hstack item (List.mem_of_getLast? hst.top)
    have hleaves := applyLeaves_stands hst.leaves hd.playing
      (itemLeaves_still (s := poppedStack s) hcards hstill)
    rw [hst.result]
    intro q
    rw [closeSegment_player]
    exact PlayerState.Stands.trans (hleaves q) (placeItem_stands u item q)
  · exact hi.stands hd.playing hcards.triggersAdmitted
      (hitem item (nextWork_of_low hlow hwork))

/-- So does an action that reseats nobody. -/
theorem ActionStep.stands {a : GameAction} (h : ActionStep s a t es)
    (ha : a.reseats = false) : Stands s t := by
  cases h with
  | cast _ _ _ _ _ _ => exact .write (s := castBegun s _ _ _) (stands_of_board rfl rfl)
  | attacked _ _ _ _ _ => exact .write (s := attackBegun s _ _) (stands_of_board rfl rfl)
  | handedOver _ _ _ =>
      intro q
      obtain ⟨f, hf, hq⟩ := handover_player (windowClosed s) q
      rw [hq]
      exact stands_map (fun x => (hf x).1)
  | converted _ _ _ _ => exact .write (s := ({ s with coin := none } : GameState)) (stands_bank _ _)
  | manaChosen _ _ => exact .write (s := ({ s with pending := none } : GameState)) (stands_bank _ _)
  | prizeChosen _ _ =>
      exact .write (s := ({ s with pending := none } : GameState)) (stands_of_board rfl rfl)
  | turnEnded _ _ _ _ | passed _ _ | passedToStack _ _ _ | resigned => exact .refl s
  | _ => cases ha

/-! ## The Stack stays still -/

theorem StillStack.drainStep (hstack : StillStack s) (hcards : s.cards.TriggersAdmitted)
    (h : Resolution.drainStep s = some (t, es)) : StillStack t := by
  obtain ⟨hd, ⟨item, u, es', hst, rfl⟩ | ⟨-, item, work, -, hi⟩⟩ := drainStep_cases h
  · intro i hmem
    rw [hst.result, closeSegment_stack, placeItem_stack,
      (applyLeaves_frame hst.leaves hd.playing).stack, poppedStack_stack] at hmem
    exact hstack i ((List.dropLast_sublist _).subset hmem)
  · have hkept : t.stack = s.stack → StillStack t := fun heq i hmem => hstack i (by rwa [heq] at hmem)
    cases hi with
    | @opened c p ev ability effects ha =>
        intro i hmem
        rcases List.mem_append.mp hmem with hmem | hmem
        · exact hstack i hmem
        · rw [List.mem_singleton.mp hmem]
          exact fun leaf hleaf => moves_of_trigger
            (abilityAt_admitted (s := poppedWork s work) hcards ha leaf hleaf)
    | fired _ hl => exact hkept (applyLeaves_frame hl hd.playing).stack
    | @movement step c p => exact hkept (markMainEntry_frame (poppedWork s work) step c p).2.1
    | _ => exact hkept rfl

theorem StillStack.action {a : GameAction} (hstack : StillStack s) (hs : s.status = .playing)
    (h : ActionStep s a t es) : StillStack t := by
  have hpushed : ∀ item, item.Still → t.stack = s.stack ++ [item] → StillStack t := by
    intro item hstill heq i hmem
    rw [heq] at hmem
    rcases List.mem_append.mp hmem with hmem | hmem
    · exact hstack i hmem
    · rw [List.mem_singleton.mp hmem]
      exact hstill
  cases h with
  | @cast c card targets _ cardRef _ _ _ _ _ _ _ _ _ _ _ =>
      exact hpushed (.spell c cardRef targets) trivial rfl
  | @attacked c _ _ _ _ _ _ _ _ _ _ => exact hpushed (.attack c .main) trivial rfl
  | skill _ _ _ _ _ _ _ hl =>
      intro i hmem
      rw [(applyLeaves_frame hl hs).stack] at hmem
      exact hstack i hmem
  | _ => exact hstack

end

end Summoners
