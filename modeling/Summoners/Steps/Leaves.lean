import Summoners.Engine.Effects

/-! # What one effect leaf can do

`LeafStep` lists the outcomes of `applyLeaf`, and `applyLeaves_rel` lifts a relation between the
states before and after one leaf to the whole fold.
-/

namespace Summoners
set_option autoImplicit false

/-- Facts that report no loss, no Mana, no trigger and no step of a destruction. -/
def GameEvent.minor : GameEvent → Bool
  | .summonsReadied _ _ | .cardDrawn _ _ | .damageCalculationStarted _ _ _
  | .damageAdjustmentApplied _ _ _ _ _ _ | .damageAdjustmentSkipped _ _ _ _ _ _
  | .damageApplied _ _ _ _ | .healed _ _ | .prizesViewed _ _ | .summonsSwapped _ _ => true
  | _ => false

/-- A list of minor facts. -/
def Minor (es : List GameEvent) : Prop := ∀ e ∈ es, e.minor = true

@[simp] theorem minor_nil : Minor [] := by simp [Minor]

@[simp] theorem minor_cons {e : GameEvent} {es : List GameEvent} :
    Minor (e :: es) ↔ e.minor = true ∧ Minor es := by simp [Minor]

@[simp] theorem minor_append {es es' : List GameEvent} :
    Minor (es ++ es') ↔ Minor es ∧ Minor es' := by
  simp [Minor, or_imp, forall_and]

open Effects

/-- The same physical Summon: its chain and its seats. -/
structure SameSummon (x y : SummonInstance) : Prop where
  chain : y.chain = x.chain
  owner : y.owner = x.owner
  controller : y.controller = x.controller

/-- What a leaf of `c` leaves of a Summon it writes at `p`: the turn record and the markers it has, and
its readiness, unless the leaf readies it and says so. -/
structure Touch (c : PlayerId) (p : Position) (x y : SummonInstance) (es : List GameEvent) :
    Prop where
  turn : y.turn = x.turn
  markers : ∀ marker ∈ x.durationMarkers, marker ∈ y.durationMarkers
  readiness : y.readiness = x.readiness ∨ y.readiness = .ready ∧ .summonsReadied c [p] ∈ es

/-- Cards moved between Deck, hand and discard pile, nothing else of the player changed. -/
structure ZoneMove (ps qs : PlayerState) : Prop where
  main : qs.main = ps.main
  bench : qs.bench = ps.bench
  prizes : qs.prizes = ps.prizes
  mana : qs.mana = ps.mana
  mainLosses : qs.mainLosses = ps.mainLosses
  enchantments : qs.enchantments = ps.enchantments
  cards : (qs.deck ++ qs.hand ++ qs.discard).Perm (ps.deck ++ ps.hand ++ ps.discard)

theorem ZoneMove.refl (ps : PlayerState) : ZoneMove ps ps := by
  constructor <;> rfl

theorem ZoneMove.trans {ps qs rs : PlayerState} (h : ZoneMove ps qs) (h' : ZoneMove qs rs) :
    ZoneMove ps rs where
  main := h'.main.trans h.main
  bench := h'.bench.trans h.bench
  prizes := h'.prizes.trans h.prizes
  mana := h'.mana.trans h.mana
  mainLosses := h'.mainLosses.trans h.mainLosses
  enchantments := h'.enchantments.trans h.enchantments
  cards := h'.cards.trans h.cards

/-- The cards a player can still come to play: those of the Deck, of the hand and of the Prizes. -/
def PlayerState.stock (ps : PlayerState) : List CardRef := ps.deck ++ ps.hand ++ ps.prizes

/-- Nothing joins a player's stock but Spells. -/
def Thins (cards : CardSet) (ps qs : PlayerState) : Prop :=
  ∀ card ∈ qs.stock, isSpell cards card = false → card ∈ ps.stock

theorem Thins.trans {cards : CardSet} {ps qs rs : PlayerState} (h : Thins cards ps qs)
    (h' : Thins cards qs rs) : Thins cards ps rs :=
  fun card hcard hspell => h card (h' card hcard hspell) hspell

/-- Cards moved within the stock. -/
theorem thins_of_perm {cards : CardSet} {ps qs : PlayerState}
    (h : (qs.deck ++ qs.hand).Perm (ps.deck ++ ps.hand)) (hprizes : qs.prizes = ps.prizes) :
    Thins cards ps qs := by
  intro card hcard _
  unfold PlayerState.stock at hcard ⊢
  rw [hprizes] at hcard
  exact (h.append_right ps.prizes).subset hcard

/-- The outcomes of one leaf of an ability of `source`. -/
inductive LeafStep (s : GameState) (source : EffectSource) (targets : List Position)
    (leaf : EffectLeaf) : GameState → List GameEvent → Prop
  | quiet {es : List GameEvent} (hm : Minor es) : LeafStep s source targets leaf s es
  | touched {p : Position} {x y : SummonInstance} {es : List GameEvent}
      (hx : (s.player source.controller).summonAt p = some x) (same : SameSummon x y)
      (hd : y.damage ≤ x.damage) (hm : Minor es) (touch : Touch source.controller p x y es) :
      LeafStep s source targets leaf
        (s.setPlayer source.controller ((s.player source.controller).setAt p (some y))) es
  | hit {p : Position} {x y : SummonInstance} {es : List GameEvent}
      (hx : (s.player source.controller.opponent).summonAt p = some x) (same : SameSummon x y)
      (hm : Minor es) (hleaf : ∃ effect, leaf = .dealDamage effect)
      (hurt : ∃ d, y = { x with damage := d }) :
      LeafStep s source targets leaf
        ((s.setPlayer source.controller.opponent
          ((s.player source.controller.opponent).setAt p (some y))).pushBack
            [.destructionCheck p]) es
  | zones {ps : PlayerState} {es : List GameEvent}
      (hz : ZoneMove (s.player source.controller) ps) (hm : Minor es)
      (hstock : Thins s.cards (s.player source.controller) ps) :
      LeafStep s source targets leaf (s.setPlayer source.controller ps) es
  | drewOut {ps : PlayerState} {es : List GameEvent}
      (hz : ZoneMove (s.player source.controller) ps) (hm : Minor es)
      (hstock : Thins s.cards (s.player source.controller) ps) :
      LeafStep s source targets leaf (Loss.drawFailure (s.setPlayer source.controller ps) source.controller).1
        (es ++ [.gameEnded source.controller.opponent .emptyDeckDraw])
  | moved {fromSlot toSlot : BenchSlot} {x : SummonInstance}
      (hto : (s.player source.controller).bench.get toSlot = none)
      (hfrom : (s.player source.controller).bench.get fromSlot = some x)
      (hleaf : leaf = .moveSummon)
      (htargets : ∃ rest, targets = .bench fromSlot :: .bench toSlot :: rest) :
      LeafStep s source targets leaf
        ((s.setPlayer source.controller
          { s.player source.controller with
            bench := ((s.player source.controller).bench.set fromSlot none).set toSlot
              (some x) }).pushBack
          [.movementTrigger .leavingBench source.controller (.bench toSlot),
            .movementTrigger .enteringBench source.controller (.bench toSlot)]) []
  | exchanged {c : PlayerId} {slot : BenchSlot} {x y : SummonInstance}
      (hmain : (s.player c).main = some x) (hbench : (s.player c).bench.get slot = some y)
      (hleaf : leaf = .swapPositions ∧ c = source.controller ∨
        leaf = .swapOpposingPositions ∧ c = source.controller.opponent ∧
          x.durationMarkers.contains .cannotBeMovedByOpponent = false)
      (htargets : ∃ rest, targets = .bench slot :: rest) :
      LeafStep s source targets leaf (swapBoard s c slot x y).1 [.summonsSwapped c slot]
  | produced {p : Position} {t : ManaType}
      (ht : Upkeep.availableTypes s.cards (s.player source.controller) (.summon p) = [t])
      (hleaf : ∃ target, leaf = .produceMana target) :
      LeafStep s source targets leaf (s.setPlayer source.controller (Upkeep.bank (s.player source.controller) t))
        [.manaProduced source.controller (.summon p) t]
  | paused {p : Position} {t u : ManaType} {ts : List ManaType}
      (ht : Upkeep.availableTypes s.cards (s.player source.controller) (.summon p) =
        t :: u :: ts)
      (hleaf : ∃ target, leaf = .produceMana target) :
      LeafStep s source targets leaf { s with pending := some (.manaProduction source.controller (.summon p)) }
        []

section
variable {s : GameState} {source : EffectSource} {targets : List Position} {leaf : EffectLeaf}

theorem LeafStep.miss : LeafStep s source targets leaf s [] := .quiet minor_nil

/-! ## Damage, healing, markers and readying -/

theorem withSummonAt_step {p : Option Position} (hit : SummonInstance → SummonInstance)
    (events : Position → SummonInstance → List GameEvent)
    (same : ∀ x, SameSummon x (hit x)) (hd : ∀ x, (hit x).damage ≤ x.damage)
    (hm : ∀ q x, Minor (events q x))
    (touch : ∀ q x, Touch source.controller q x (hit x) (events q x))
    {r : GameState × List GameEvent} (hr : r = match p with
      | none => (s, [])
      | some p => withSummonAt s source.controller p hit (events p)) :
    LeafStep s source targets leaf r.1 r.2 := by
  subst hr
  cases p with
  | none => exact .miss
  | some p =>
      simp only [withSummonAt]
      cases hx : (s.player source.controller).summonAt p with
      | none => exact .miss
      | some x => exact .touched hx (same x) (hd x) (hm p x) (touch p x)

theorem sameSummon_protect (x : SummonInstance) : SameSummon x (protect x) := by
  unfold protect
  split <;> exact ⟨rfl, rfl, rfl⟩

theorem protect_damage (x : SummonInstance) : (protect x).damage = x.damage := by
  unfold protect
  split <;> rfl

theorem protect_touch (p : Position) (x : SummonInstance) :
    Touch source.controller p x (protect x) [] := by
  unfold protect
  split
  · exact ⟨rfl, fun _ hm => hm, .inl rfl⟩
  · exact ⟨rfl, fun _ hm => List.mem_append_left _ hm, .inl rfl⟩

theorem sub_healedAmount_le (amount : UInt32) (x : SummonInstance) :
    x.damage - healedAmount amount x ≤ x.damage := by
  have h : healedAmount amount x ≤ x.damage := by
    unfold healedAmount
    split
    · assumption
    · exact UInt32.le_refl _
  rw [UInt32.le_iff_toNat_le] at h ⊢
  rw [UInt32.toNat_sub_of_le _ _ (UInt32.le_iff_toNat_le.mpr h)]
  omega

theorem dealDamage_step (targets : List Position) (effect : DamageEffect) :
    LeafStep s source targets (.dealDamage effect) (dealDamage s source targets effect).1
      (dealDamage s source targets effect).2 := by
  unfold dealDamage
  cases targets with
  | nil => exact .miss
  | cons p ps =>
      simp only [Damage.commit, Damage.evaluate]
      cases hx : (s.player source.controller.opponent).summonAt p with
      | none => exact .miss
      | some x =>
          refine .hit hx ⟨rfl, rfl, rfl⟩ ?_ ⟨effect, rfl⟩ ⟨_, rfl⟩
          simp only [List.cons_append, minor_cons, minor_append, GameEvent.minor, minor_nil,
            and_self, and_true, true_and]
          intro e he
          obtain ⟨line, -, rfl⟩ := List.mem_map.mp he
          cases line <;> rfl

/-! ## Zones -/

theorem zoneMove_returnFromDiscard {ps : PlayerState} {p : CardRef → Bool} {card : CardRef}
    {rest : List CardRef} (h : removeFirst p ps.discard = some (card, rest)) :
    ZoneMove ps { ps with discard := rest, hand := ps.hand ++ [card] } := by
  refine ⟨rfl, rfl, rfl, rfl, rfl, rfl, ?_⟩
  have := (removeFirst_perm h).append_left (ps.deck ++ ps.hand)
  simpa using this

theorem zoneMove_returnToDeck {ps : PlayerState} {p : CardRef → Bool} {card : CardRef}
    {rest : List CardRef} (h : removeFirst p ps.hand = some (card, rest)) :
    ZoneMove ps { ps with hand := rest, deck := card :: ps.deck } := by
  refine ⟨rfl, rfl, rfl, rfl, rfl, rfl, ?_⟩
  have h' := ((removeFirst_perm h).append_left ps.deck).append_right ps.discard
  have hc : (card :: (ps.deck ++ rest)).Perm (ps.deck ++ card :: rest) := List.perm_middle.symm
  simpa using (hc.append_right ps.discard).trans h'

theorem zoneMove_draw {ps : PlayerState} {card : CardRef} {deck : List CardRef}
    (h : ps.deck = card :: deck) :
    ZoneMove ps { ps with deck := deck, hand := ps.hand ++ [card] } := by
  refine ⟨rfl, rfl, rfl, rfl, rfl, rfl, ?_⟩
  have hc : (deck ++ (ps.hand ++ [card])).Perm (card :: (deck ++ ps.hand)) := by
    rw [← List.append_assoc]
    exact List.perm_append_singleton _ _
  simpa [h] using hc.append_right ps.discard

theorem thins_draw {cards : CardSet} {ps : PlayerState} {card : CardRef} {deck : List CardRef}
    (h : ps.deck = card :: deck) :
    Thins cards ps { ps with deck := deck, hand := ps.hand ++ [card] } := by
  refine thins_of_perm ?_ rfl
  have hc : (deck ++ (ps.hand ++ [card])).Perm (card :: (deck ++ ps.hand)) := by
    rw [← List.append_assoc]
    exact List.perm_append_singleton _ _
  simpa [h] using hc

theorem thins_returnToDeck {cards : CardSet} {ps : PlayerState} {p : CardRef → Bool}
    {card : CardRef} {rest : List CardRef} (h : removeFirst p ps.hand = some (card, rest)) :
    Thins cards ps { ps with hand := rest, deck := card :: ps.deck } := by
  refine thins_of_perm ?_ rfl
  have hc : (card :: (ps.deck ++ rest)).Perm (ps.deck ++ card :: rest) := List.perm_middle.symm
  exact hc.trans ((removeFirst_perm h).append_left ps.deck)

/-- Only a Spell comes back from the discard pile. -/
theorem thins_returnFromDiscard {cards : CardSet} {ps : PlayerState} {card : CardRef}
    {rest : List CardRef} (h : removeFirst (isSpell cards) ps.discard = some (card, rest)) :
    Thins cards ps { ps with discard := rest, hand := ps.hand ++ [card] } := by
  intro c hc hspell
  simp only [PlayerState.stock, List.mem_append, List.mem_singleton] at hc ⊢
  rcases hc with (hc | hc | rfl) | hc
  · exact .inl (.inl hc)
  · exact .inl (.inr hc)
  · rw [removeFirst_pos h] at hspell
    cases hspell
  · exact .inr hc

/-- The draw loop moves cards within the player's zones and reports draws only. -/
theorem drawLoop_zones (c : PlayerId) : ∀ (n : ℕ) (s : GameState),
    ∃ ps, ZoneMove (s.player c) ps ∧ Thins s.cards (s.player c) ps ∧
      (drawLoop s c n).1 = s.setPlayer c ps ∧ Minor (drawLoop s c n).2
  | 0, s => ⟨_, .refl _, fun _ hc _ => hc, (s.setPlayer_self c).symm, minor_nil⟩
  | n + 1, s => by
      cases hd : (s.player c).deck with
      | nil =>
          refine ⟨_, .refl _, fun _ hc _ => hc, ?_, ?_⟩ <;> simp [drawLoop, hd]
      | cons card deck =>
          obtain ⟨ps, hz, ht, hs, hm⟩ := drawLoop_zones c n
            (s.setPlayer c { s.player c with deck := deck, hand := (s.player c).hand ++ [card] })
          rw [GameState.player_setPlayer_self] at hz ht
          refine ⟨ps, (zoneMove_draw hd).trans hz, (thins_draw hd).trans ht, ?_, ?_⟩
          · simpa [drawLoop, hd] using hs
          · simpa [drawLoop, hd, GameEvent.minor] using hm

theorem drawCards_step (amount : UInt32) :
    LeafStep s source targets leaf (drawCards s source.controller amount).1
      (drawCards s source.controller amount).2 := by
  obtain ⟨ps, hz, ht, hs, hm⟩ := drawLoop_zones source.controller amount.toNat s
  unfold drawCards
  simp only
  split
  · rw [hs]
    exact .drewOut hz hm ht
  · rw [hs]
    exact .zones hz hm ht

/-! ## Movement -/

theorem moveSummon_step (targets : List Position) :
    LeafStep s source targets .moveSummon (moveSummon s source.controller targets).1
      (moveSummon s source.controller targets).2 := by
  unfold moveSummon
  split
  · simp only
    split
    · exact .miss
    · rename_i hto
      split
      · exact .miss
      · rename_i hfrom
        exact .moved (by simpa using hto) hfrom rfl ⟨_, rfl⟩
  · exact .miss

theorem swapPositions_step (targets : List Position) :
    LeafStep s source targets .swapPositions (swapPositions s source.controller targets).1
      (swapPositions s source.controller targets).2 := by
  unfold swapPositions
  split
  · simp only
    split
    · exact .miss
    · rename_i hmain
      split
      · exact .miss
      · rename_i hbench
        exact .exchanged hmain hbench (.inl ⟨rfl, rfl⟩) ⟨_, rfl⟩
  · exact .miss

theorem swapOpposingPositions_step (targets : List Position) :
    LeafStep s source targets .swapOpposingPositions (swapOpposingPositions s source.controller targets).1
      (swapOpposingPositions s source.controller targets).2 := by
  unfold swapOpposingPositions
  split
  · simp only
    split
    · exact .miss
    · rename_i hmain
      split
      · exact .miss
      · rename_i hfree
        split
        · exact .miss
        · rename_i hbench
          exact .exchanged hmain hbench (.inr ⟨rfl, rfl, by simpa using hfree⟩) ⟨_, rfl⟩
  · exact .miss

/-! ## Mana -/

theorem produceManaLeaf_step (target : EffectTarget) (p : Option Position) :
    LeafStep s source targets (.produceMana target) (produceManaLeaf s source.controller p).1
      (produceManaLeaf s source.controller p).2 := by
  unfold produceManaLeaf
  cases p with
  | none => exact .miss
  | some p =>
      simp only [Upkeep.produceMana]
      split
      · exact .miss
      · rename_i ht
        exact .produced ht ⟨target, rfl⟩
      · rename_i ht
        exact .paused ht ⟨target, rfl⟩

/-- **One leaf does one of the listed things.** -/
theorem applyLeaf_step (s : GameState) (source : EffectSource) (targets : List Position)
    (leaf : EffectLeaf) :
    LeafStep s source targets leaf (applyLeaf s source targets leaf).1 (applyLeaf s source targets leaf).2 := by
  cases leaf with
  | dealDamage effect => exact dealDamage_step targets effect
  | heal amount target =>
      exact withSummonAt_step (fun x => { x with damage := x.damage - healedAmount amount x })
        (fun q x => [.healed q (healedAmount amount x)])
        (fun _ => ⟨rfl, rfl, rfl⟩) (sub_healedAmount_le amount)
        (fun _ _ => by simp [GameEvent.minor]) (fun _ _ => ⟨rfl, fun _ hm => hm, .inl rfl⟩) rfl
  | moveSummon => exact moveSummon_step targets
  | swapPositions => exact swapPositions_step targets
  | blockResponses condition block => exact .miss
  | returnSpellFromDiscard =>
      simp only [applyLeaf, returnSpellFromDiscard]
      split
      · exact .miss
      · rename_i h
        exact .zones (zoneMove_returnFromDiscard h) minor_nil (thins_returnFromDiscard h)
  | lookAtPrizes => exact .quiet (by simp [applyLeaf, Effects.lookAtPrizes, GameEvent.minor])
  | drawCards amount => exact drawCards_step amount
  | returnSpellToDeckTop =>
      simp only [applyLeaf, returnSpellToDeckTop]
      split
      · exact .miss
      · rename_i h
        exact .zones (zoneMove_returnToDeck h) minor_nil (thins_returnToDeck h)
  | produceMana target => exact produceManaLeaf_step target _
  | cannotBeMovedByOpponent target =>
      exact withSummonAt_step protect (fun _ _ => []) sameSummon_protect
        (fun x => by rw [protect_damage]; exact UInt32.le_refl _) (fun _ _ => minor_nil)
        protect_touch rfl
  | readySummon =>
      refine withSummonAt_step (p := targets.head?) Upkeep.readySummon
        (fun q _ => [.summonsReadied source.controller [q]])
        (fun _ => ⟨rfl, rfl, rfl⟩) (fun _ => UInt32.le_refl _)
        (fun q x => by simp [GameEvent.minor])
        (fun q x => ⟨rfl, fun _ hm => hm, .inr ⟨rfl, List.mem_singleton_self _⟩⟩) ?_
      cases targets <;> rfl
  | swapOpposingPositions => exact swapOpposingPositions_step targets

end

/-! ## The fold -/

/-- A reflexive relation that composes through Playing states and holds of every step of a leaf
holds of the whole fold. -/
theorem applyLeaves_rel {R : GameState → List GameEvent → GameState → Prop}
    {source : EffectSource} {targets : List Position} {leaves : List EffectLeaf} {s t : GameState}
    {es : List GameEvent} (h : applyLeaves s source targets leaves = (t, es))
    (hs : s.status = .playing) (refl : ∀ s, R s [] s)
    (trans : ∀ {s t u : GameState} {es es' : List GameEvent}, t.status = .playing → R s es t →
      R t es' u → R s (es ++ es') u)
    (step : ∀ {leaf : EffectLeaf} {s t : GameState} {es : List GameEvent}, leaf ∈ leaves →
      s.status = .playing → LeafStep s source targets leaf t es → R s es t) : R s es t := by
  induction leaves generalizing s t es with
  | nil => cases h; exact refl s
  | cons leaf leaves ih =>
      have hstep := step List.mem_cons_self hs (applyLeaf_step s source targets leaf)
      have hrest : ∀ {l : EffectLeaf} {s t : GameState} {es : List GameEvent}, l ∈ leaves →
          s.status = .playing → LeafStep s source targets l t es → R s es t :=
        fun hl => step (List.mem_cons_of_mem _ hl)
      unfold applyLeaves at h
      simp only at h
      split at h
      · rename_i ht
        have ht := (GameStatus.isPlaying_iff _).mp ht
        cases h
        exact trans ht hstep (ih rfl ht hrest)
      · rw [h] at hstep
        exact hstep

end Summoners
