import Summoners.Symmetry.Swap

/-! # Effect leaves with the seats exchanged

Each leaf, and the fold over the leaves of an ability, does in the swapped state what it does in the
state, with the seats exchanged.
-/

namespace Summoners
set_option autoImplicit false

section
variable (s : GameState) (c : PlayerId)

/-! ## Damage -/

@[simp] theorem conditionHolds_swap (targets : List Position) (condition : EffectCondition) :
    Damage.conditionHolds s.swap c.opponent targets condition =
      Damage.conditionHolds s c targets condition := by
  cases condition with
  | spellPlayedThisTurn => simp [Damage.conditionHolds]
  | defenderEnteredMainThisTurn =>
      cases targets with
      | nil => rfl
      | cons p rest =>
          simp only [Damage.conditionHolds, GameState.swap_player, PlayerId.opponent_opponent,
            PlayerState.swap_summonAt]
          cases (s.player c.opponent).summonAt p <;> rfl

@[simp] theorem DamageSource.swap_controller (source : DamageSource) :
    source.swap.controller = source.controller.opponent := by
  cases source <;> rfl

@[simp] theorem DamageSource.swap_origin (source : DamageSource) :
    source.swap.origin = source.origin := by
  cases source <;> rfl

theorem isOpposingAttack_swap (context : DamageContext) :
    Damage.isOpposingAttack context.swap = Damage.isOpposingAttack context := by
  obtain ⟨source, target⟩ := context
  cases source with
  | attack controller p ability =>
      simp only [Damage.isOpposingAttack, DamageContext.swap, DamageSource.swap,
        PlayerId.opponent_inj]
  | _ => rfl

theorem collectAdjustments_swap (context : DamageContext) (effect : DamageEffect) :
    Damage.collectAdjustments s.swap ⟨context.swap, effect⟩ =
      Damage.collectAdjustments s ⟨context, effect⟩ := by
  have hcontroller : context.swap.source.controller = context.source.controller.opponent :=
    DamageSource.swap_controller _
  have horigin : context.swap.source.origin = context.source.origin := DamageSource.swap_origin _
  have hposition : context.swap.target.position = context.target.position := rfl
  have hplayer : (s.swap.player context.swap.target.controller).enchantments =
      (s.player context.target.controller).enchantments := by
    rw [GameState.swap_player]
    show (s.player context.target.controller.opponent.opponent).swap.enchantments = _
    rw [PlayerId.opponent_opponent]
    rfl
  simp only [Damage.collectAdjustments, isOpposingAttack_swap, hcontroller, horigin, hposition,
    hplayer, conditionHolds_swap, GameState.swap_cards]

theorem evaluate_swap (context : DamageContext) (effect : DamageEffect) :
    Damage.evaluate s.swap ⟨context.swap, effect⟩ =
      { Damage.evaluate s ⟨context, effect⟩ with context := context.swap } := by
  have horigin : context.swap.source.origin = context.source.origin := DamageSource.swap_origin _
  simp only [Damage.evaluate, collectAdjustments_swap, horigin]

theorem lineEvent_swap (context : DamageContext) (line : Damage.DamageLine) :
    Damage.lineEvent context.swap line = (Damage.lineEvent context line).swap := by
  cases line <;> rfl

theorem commit_swap (resolution : Damage.DamageResolution) :
    Damage.commit s.swap { resolution with context := resolution.context.swap } =
      swapResult (Damage.commit s resolution) := by
  have hcontroller : resolution.context.swap.target.controller =
      resolution.context.target.controller.opponent := rfl
  have hposition : resolution.context.swap.target.position = resolution.context.target.position :=
    rfl
  simp only [Damage.commit, hcontroller, hposition, GameState.swap_player,
    PlayerId.opponent_opponent, PlayerState.swap_summonAt]
  cases (s.player resolution.context.target.controller).summonAt
      resolution.context.target.position with
  | none => rfl
  | some x =>
      simp [swapResult, WorkItem.swap, GameEvent.swap, SummonInstance.swap, lineEvent_swap,
        Function.comp_def]

/-! ## Mana -/

@[simp] theorem producedTypes_swap (cards : CardSet) (x : SummonInstance) :
    Upkeep.producedTypes cards x.swap = Upkeep.producedTypes cards x := rfl

theorem controlledSummons_swap (ps : PlayerState) :
    Upkeep.controlledSummons ps.swap = (Upkeep.controlledSummons ps).map SummonInstance.swap := by
  unfold Upkeep.controlledSummons
  rw [PlayerState.swap_main, PlayerState.swap_bench, swap_summons, List.map_append]
  cases ps.main <;> rfl

@[simp] theorem anchorTypes_swap (cards : CardSet) (ps : PlayerState) :
    Upkeep.anchorTypes cards ps.swap = Upkeep.anchorTypes cards ps := by
  unfold Upkeep.anchorTypes
  simp only [controlledSummons_swap, List.any_map, Function.comp_def, producedTypes_swap]

@[simp] theorem availableTypes_swap (cards : CardSet) (ps : PlayerState) (source : ManaSource) :
    Upkeep.availableTypes cards ps.swap source = Upkeep.availableTypes cards ps source := by
  cases source with
  | player => exact anchorTypes_swap cards ps
  | summon p =>
      simp only [Upkeep.availableTypes, Upkeep.summonTypes, PlayerState.swap_summonAt]
      cases ps.summonAt p <;> rfl

@[simp] theorem bank_swap (ps : PlayerState) (t : ManaType) :
    Upkeep.bank ps.swap t = (Upkeep.bank ps t).swap := by
  cases t <;> rfl

theorem produceMana_swap (source : ManaSource) :
    Upkeep.produceMana s.swap c.opponent source = swapResult (Upkeep.produceMana s c source) := by
  simp only [Upkeep.produceMana, GameState.swap_cards, GameState.swap_player,
    PlayerId.opponent_opponent, availableTypes_swap]
  split
  · rfl
  · simp [swapResult, GameEvent.swap]
  · rfl

/-! ## Losing -/

theorem lose_swap (reason : LossReason) :
    Loss.lose s.swap c.opponent reason = swapResult (Loss.lose s c reason) := rfl

/-! ## One leaf -/

theorem withSummonAt_swap (p : Position) {hit : SummonInstance → SummonInstance}
    {events events' : SummonInstance → List GameEvent} (hhit : ∀ x, hit x.swap = (hit x).swap)
    (hevents : ∀ x, events' x.swap = (events x).map GameEvent.swap) :
    Effects.withSummonAt s.swap c.opponent p hit events' =
      swapResult (Effects.withSummonAt s c p hit events) := by
  simp only [Effects.withSummonAt, GameState.swap_player, PlayerId.opponent_opponent,
    PlayerState.swap_summonAt]
  cases (s.player c).summonAt p with
  | none => rfl
  | some x => simp [swapResult, hhit, hevents]

theorem heal_swap (p : Option Position) (amount : UInt32) :
    Effects.heal s.swap c.opponent p amount = swapResult (Effects.heal s c p amount) := by
  cases p with
  | none => rfl
  | some p => exact withSummonAt_swap s c p (fun _ => rfl) (fun _ => rfl)

theorem protect_swap (x : SummonInstance) :
    Effects.protect x.swap = (Effects.protect x).swap := by
  show (if x.durationMarkers.contains .cannotBeMovedByOpponent then x.swap else _) = _
  unfold Effects.protect
  split <;> rfl

theorem cannotBeMovedByOpponent_swap (p : Option Position) :
    Effects.cannotBeMovedByOpponent s.swap c.opponent p =
      swapResult (Effects.cannotBeMovedByOpponent s c p) := by
  cases p with
  | none => rfl
  | some p => exact withSummonAt_swap s c p protect_swap (fun _ => rfl)

theorem readySummon_swap (targets : List Position) :
    Effects.readySummon s.swap c.opponent targets =
      swapResult (Effects.readySummon s c targets) := by
  cases targets with
  | nil => rfl
  | cons p rest => exact withSummonAt_swap s c p (fun _ => rfl) (fun _ => rfl)

theorem returnSpellFromDiscard_swap :
    Effects.returnSpellFromDiscard s.swap c.opponent =
      swapResult (Effects.returnSpellFromDiscard s c) := by
  simp only [Effects.returnSpellFromDiscard, GameState.swap_player, PlayerId.opponent_opponent,
    GameState.swap_cards, PlayerState.swap_discard]
  cases removeFirst (Effects.isSpell s.cards) (s.player c).discard with
  | none => rfl
  | some r =>
      simp only [swapResult, GameState.swap_setPlayer]
      rfl

theorem returnSpellToDeckTop_swap :
    Effects.returnSpellToDeckTop s.swap c.opponent =
      swapResult (Effects.returnSpellToDeckTop s c) := by
  simp only [Effects.returnSpellToDeckTop, GameState.swap_player, PlayerId.opponent_opponent,
    GameState.swap_cards, PlayerState.swap_hand]
  cases removeFirst (Effects.isSpell s.cards) (s.player c).hand with
  | none => rfl
  | some r =>
      simp only [swapResult, GameState.swap_setPlayer]
      rfl

theorem exchange_swap (ps : PlayerState) (slot : BenchSlot) (x y : SummonInstance) :
    Effects.exchange ps.swap slot x.swap y.swap = (Effects.exchange ps slot x y).swap := by
  simp [Effects.exchange, PlayerState.swap]

theorem exchangeSteps_swap (slot : BenchSlot) :
    Effects.exchangeSteps c.opponent slot = (Effects.exchangeSteps c slot).map WorkItem.swap := rfl

theorem swapBoard_swap (slot : BenchSlot) (x y : SummonInstance) :
    Effects.swapBoard s.swap c.opponent slot x.swap y.swap =
      swapResult (Effects.swapBoard s c slot x y) := by
  simp only [Effects.swapBoard, swapResult, GameState.swap_player, PlayerId.opponent_opponent,
    exchange_swap, GameState.swap_pushBack, GameState.swap_setPlayer, exchangeSteps_swap]
  rfl

theorem swapPositions_swap (targets : List Position) :
    Effects.swapPositions s.swap c.opponent targets =
      swapResult (Effects.swapPositions s c targets) := by
  unfold Effects.swapPositions
  split
  · simp only [GameState.swap_player, PlayerId.opponent_opponent, PlayerState.swap_main,
      PlayerState.swap_bench, Bench.swap_get]
    cases (s.player c).main with
    | none => rfl
    | some x =>
        rename_i slot _
        cases (s.player c).bench.get slot with
        | none => rfl
        | some y => exact swapBoard_swap s c slot x y
  · rfl

theorem swapOpposingPositions_swap (targets : List Position) :
    Effects.swapOpposingPositions s.swap c.opponent targets =
      swapResult (Effects.swapOpposingPositions s c targets) := by
  unfold Effects.swapOpposingPositions
  split
  · simp only [GameState.swap_player, PlayerId.opponent_opponent, PlayerState.swap_main,
      PlayerState.swap_bench, Bench.swap_get]
    cases (s.player c.opponent).main with
    | none => rfl
    | some x =>
        rename_i slot _
        show (if x.durationMarkers.contains .cannotBeMovedByOpponent then _ else _) = _
        simp only
        split
        · rfl
        · cases (s.player c.opponent).bench.get slot with
          | none => rfl
          | some y =>
              have hboard := swapBoard_swap s c.opponent slot x y
              rw [PlayerId.opponent_opponent] at hboard
              exact hboard
  · rfl

theorem moveSummon_swap (targets : List Position) :
    Effects.moveSummon s.swap c.opponent targets =
      swapResult (Effects.moveSummon s c targets) := by
  unfold Effects.moveSummon
  split
  · rename_i fromSlot toSlot _
    simp only [GameState.swap_player, PlayerId.opponent_opponent, PlayerState.swap_bench,
      Bench.swap_get, Option.isSome_map]
    split
    · rfl
    · cases (s.player c).bench.get fromSlot with
      | none => rfl
      | some x =>
          simp only [swapResult, GameState.swap_pushBack, GameState.swap_setPlayer]
          simp [PlayerState.swap, WorkItem.swap]
  · rfl

theorem dealDamage_swap (source : EffectSource) (targets : List Position) (effect : DamageEffect) :
    Effects.dealDamage s.swap source.swap targets effect =
      swapResult (Effects.dealDamage s source targets effect) := by
  cases targets with
  | nil => rfl
  | cons p rest =>
      have hcontext : (⟨.ofEffectSource source.swap, ⟨source.swap.controller.opponent, p⟩⟩ :
          DamageContext) = DamageContext.swap
            ⟨.ofEffectSource source, ⟨source.controller.opponent, p⟩⟩ := by
        cases source <;> rfl
      simp only [Effects.dealDamage, hcontext, evaluate_swap]
      exact commit_swap s (Damage.evaluate s
        ⟨⟨.ofEffectSource source, ⟨source.controller.opponent, p⟩⟩, effect⟩)

theorem drawLoop_swap : ∀ (n : ℕ) (s : GameState),
    Effects.drawLoop s.swap c.opponent n = swapResult (Effects.drawLoop s c n)
  | 0, _ => rfl
  | n + 1, s => by
      have hdeck : (s.swap.player c.opponent).deck = (s.player c).deck := by
        rw [GameState.swap_player, PlayerId.opponent_opponent, PlayerState.swap_deck]
      unfold Effects.drawLoop
      simp only [hdeck]
      cases (s.player c).deck with
      | nil => rfl
      | cons card deck =>
          have hnext : s.swap.setPlayer c.opponent { s.swap.player c.opponent with
              deck := deck, hand := (s.swap.player c.opponent).hand ++ [card] } =
                (s.setPlayer c { s.player c with
                  deck := deck, hand := (s.player c).hand ++ [card] }).swap := by
            rw [GameState.swap_setPlayer, GameState.swap_player, PlayerId.opponent_opponent]
            rfl
          simp only [hnext, drawLoop_swap n]
          rfl

theorem drawCards_swap (amount : UInt32) :
    Effects.drawCards s.swap c.opponent amount = swapResult (Effects.drawCards s c amount) := by
  have hdeck : (s.swap.player c.opponent).deck = (s.player c).deck := by
    rw [GameState.swap_player, PlayerId.opponent_opponent, PlayerState.swap_deck]
  unfold Effects.drawCards
  simp only [hdeck, drawLoop_swap]
  split
  · simp only [swapResult, Loss.drawFailure, lose_swap, List.map_append]
  · rfl

theorem effectPosition_swap (source : EffectSource) (targets : List Position)
    (target : EffectTarget) : Effects.effectPosition source.swap targets target =
      Effects.effectPosition source targets target := by
  cases target with
  | selected => rfl
  | source => exact EffectSource.swap_position source

/-- **One leaf** in the swapped state. -/
theorem applyLeaf_swap (source : EffectSource) (targets : List Position) (leaf : EffectLeaf) :
    Effects.applyLeaf s.swap source.swap targets leaf =
      swapResult (Effects.applyLeaf s source targets leaf) := by
  cases leaf with
  | dealDamage effect => exact dealDamage_swap s source targets effect
  | heal amount target =>
      simp only [Effects.applyLeaf, EffectSource.swap_controller, effectPosition_swap]
      exact heal_swap s _ _ _
  | moveSummon =>
      simp only [Effects.applyLeaf, EffectSource.swap_controller]
      exact moveSummon_swap s _ _
  | swapPositions =>
      simp only [Effects.applyLeaf, EffectSource.swap_controller]
      exact swapPositions_swap s _ _
  | blockResponses condition block => rfl
  | returnSpellFromDiscard =>
      simp only [Effects.applyLeaf, EffectSource.swap_controller]
      exact returnSpellFromDiscard_swap s _
  | lookAtPrizes =>
      simp only [Effects.applyLeaf, Effects.lookAtPrizes, EffectSource.swap_controller,
        GameState.swap_player, PlayerId.opponent_opponent]
      rfl
  | drawCards amount =>
      simp only [Effects.applyLeaf, EffectSource.swap_controller]
      exact drawCards_swap s _ _
  | returnSpellToDeckTop =>
      simp only [Effects.applyLeaf, EffectSource.swap_controller]
      exact returnSpellToDeckTop_swap s _
  | produceMana target =>
      simp only [Effects.applyLeaf, EffectSource.swap_controller, effectPosition_swap]
      cases Effects.effectPosition source targets target with
      | none => rfl
      | some p => exact produceMana_swap s _ _
  | cannotBeMovedByOpponent target =>
      simp only [Effects.applyLeaf, EffectSource.swap_controller, effectPosition_swap]
      exact cannotBeMovedByOpponent_swap s _ _
  | readySummon =>
      simp only [Effects.applyLeaf, EffectSource.swap_controller]
      exact readySummon_swap s _ _
  | swapOpposingPositions =>
      simp only [Effects.applyLeaf, EffectSource.swap_controller]
      exact swapOpposingPositions_swap s _ _

end

/-- **The leaves of an ability** in the swapped state: the same ones run. -/
theorem applyLeaves_swap (source : EffectSource) (targets : List Position) :
    ∀ (leaves : List EffectLeaf) (s : GameState),
      Effects.applyLeaves s.swap source.swap targets leaves =
        swapResult (Effects.applyLeaves s source targets leaves)
  | [], _ => rfl
  | leaf :: leaves, s => by
      unfold Effects.applyLeaves
      simp only [applyLeaf_swap, swapResult, GameState.swap_status, GameStatus.swap_isPlaying]
      split
      · rw [applyLeaves_swap source targets leaves]
        simp only [swapResult, List.map_append]
      · rfl

end Summoners
