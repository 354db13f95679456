import Summoners.Symmetry.Leaves

/-! # The drain with the seats exchanged

Discovery, destruction and the Stack order players by who is active, never by seat, so an iteration
in the swapped state is the swapped iteration.
-/

namespace Summoners
set_option autoImplicit false

section
variable (s : GameState) (c : PlayerId) (p : Position)

/-! ## Triggers -/

theorem cardAt_swap : Triggers.cardAt s.swap c.opponent p = Triggers.cardAt s c p := by
  simp only [Triggers.cardAt, GameState.swap_player, PlayerId.opponent_opponent,
    PlayerState.swap_summonAt, GameState.swap_cards]
  cases (s.player c).summonAt p <;> rfl

theorem matchingAbilities_swap (ev : TriggerEvent) :
    Triggers.matchingAbilities s.swap c.opponent p ev = Triggers.matchingAbilities s c p ev := by
  simp only [Triggers.matchingAbilities, cardAt_swap]

theorem abilityAt_swap (ability : EntityId) :
    Triggers.abilityAt s.swap c.opponent p ability = Triggers.abilityAt s c p ability := by
  simp only [Triggers.abilityAt, cardAt_swap]

@[simp] theorem occupiedBenchSlots_swap (ps : PlayerState) :
    Destruction.occupiedBenchSlots ps.swap = Destruction.occupiedBenchSlots ps := by
  simp [Destruction.occupiedBenchSlots]

theorem controlledPositions_swap (ps : PlayerState) :
    Triggers.controlledPositions ps.swap = Triggers.controlledPositions ps := by
  simp [Triggers.controlledPositions]

/-- The triggers discovered for the swapped players are the swapped ones. -/
theorem candidates_swap (ev : TriggerEvent) : ∀ players : List PlayerId,
    Triggers.candidates s.swap (players.map PlayerId.opponent) ev =
      (Triggers.candidates s players ev).map WorkItem.swap
  | [] => rfl
  | q :: players => by
      have hrest := candidates_swap ev players
      unfold Triggers.candidates at hrest ⊢
      rw [List.map_cons, List.flatMap_cons, List.flatMap_cons, List.map_append, hrest]
      simp only [GameState.swap_player, PlayerId.opponent_opponent, controlledPositions_swap,
        matchingAbilities_swap, List.map_flatMap, List.map_map, Function.comp_def, WorkItem.swap]

theorem orderedPlayers_swap :
    Destruction.orderedPlayers s.swap = (Destruction.orderedPlayers s).map PlayerId.opponent := rfl

@[simp] theorem segmentBase_swap : Stack.segmentBase s.swap = Stack.segmentBase s := rfl

theorem windowAfterPlay_swap :
    Stack.windowAfterPlay c.opponent = (Stack.windowAfterPlay c).swap := rfl

theorem fire_swap (ev : TriggerEvent) (ability : EntityId) (trigger : Bool × List EffectLeaf) :
    Triggers.fire s.swap ⟨c.opponent, p, ev, ability⟩ trigger =
      swapResult (Triggers.fire s ⟨c, p, ev, ability⟩ trigger) := by
  unfold Triggers.fire
  simp only
  split
  · simp [swapResult, GameState.swap, TurnState.swap, windowAfterPlay_swap, StackItem.swap,
      GameEvent.swap]
  · have hleaves := applyLeaves_swap (.trigger c p ability)
      (Triggers.implicitTargets p trigger.2) trigger.2 s
    simp only [EffectSource.swap] at hleaves
    rw [hleaves]
    rfl

theorem markMainEntry_swap (step : MovementStep) :
    Triggers.markMainEntry s.swap step c.opponent p = (Triggers.markMainEntry s step c p).swap := by
  have hmain : (s.swap.player c.opponent).main = (s.player c).main.map SummonInstance.swap := by
    rw [GameState.swap_player, PlayerId.opponent_opponent, PlayerState.swap_main]
  unfold Triggers.markMainEntry
  cases step with
  | enteringMain =>
      cases p with
      | main =>
          simp only [hmain]
          cases (s.player c).main with
          | none => rfl
          | some x =>
              simp only [Option.map_some, GameState.swap_player, PlayerId.opponent_opponent,
                GameState.swap_setPlayer]
              rfl
      | bench slot => rfl
  | _ => rfl

theorem movementTrigger_swap (step : MovementStep) :
    Triggers.movementTrigger s.swap step c.opponent p =
      swapResult (Triggers.movementTrigger s step c p) := by
  simp only [Triggers.movementTrigger, markMainEntry_swap, matchingAbilities_swap, swapResult,
    GameState.swap_pushFront, List.map_map, List.map_nil]
  rfl

theorem fireQueued_swap (ev : TriggerEvent) (ability : EntityId) :
    Triggers.fireQueued s.swap c.opponent p ev ability =
      swapResult (Triggers.fireQueued s c p ev ability) := by
  simp only [Triggers.fireQueued, abilityAt_swap]
  split
  · exact fire_swap s c p ev ability _
  · rfl

/-! ## Destruction -/

theorem isDestroyed_swap :
    Destruction.isDestroyed s.swap c.opponent p = Destruction.isDestroyed s c p := by
  simp only [Destruction.isDestroyed, GameState.swap_player, PlayerId.opponent_opponent,
    PlayerState.swap_summonAt, GameState.swap_cards]
  cases (s.player c).summonAt p <;> rfl

theorem firstDestroyed_swap : ∀ players : List PlayerId,
    Destruction.firstDestroyed s.swap p (players.map PlayerId.opponent) =
      (Destruction.firstDestroyed s p players).map (Option.map PlayerId.opponent)
  | [] => rfl
  | q :: players => by
      have hrest := firstDestroyed_swap players
      simp only [List.map_cons, Destruction.firstDestroyed, isDestroyed_swap, hrest]
      split <;> rfl

theorem destructionSteps_swap :
    Destruction.destructionSteps c.opponent p =
      (Destruction.destructionSteps c p).map WorkItem.swap := by
  cases p <;> rfl

theorem checkPlayers_swap : ∀ (players : List PlayerId) (s : GameState),
    Destruction.checkPlayers s.swap p (players.map PlayerId.opponent) =
      (Destruction.checkPlayers s p players).swap
  | [], _ => rfl
  | q :: players, s => by
      have hqueue : Destruction.enqueueDestruction s.swap q.opponent p =
          (Destruction.enqueueDestruction s q p).swap := by
        simp only [Destruction.enqueueDestruction, destructionSteps_swap, GameState.swap_pushBack]
      simp only [List.map_cons, Destruction.checkPlayers, isDestroyed_swap, hqueue,
        checkPlayers_swap players]
      split <;> rfl

theorem check_swap : Destruction.check s.swap p = swapResult (Destruction.check s p) := by
  simp only [Destruction.check, orderedPlayers_swap, checkPlayers_swap]
  rfl

theorem discardSummon_swap (x : SummonInstance) :
    Destruction.discardSummon s.swap c.opponent p x.swap =
      (Destruction.discardSummon s c p x).swap := by
  have htaken : s.swap.setPlayer c.opponent ((s.swap.player c.opponent).setAt p none) =
      (s.setPlayer c ((s.player c).setAt p none)).swap := by
    rw [GameState.swap_setPlayer, GameState.swap_player, PlayerId.opponent_opponent,
      PlayerState.swap_setAt, Option.map_none]
  have hpile (v : GameState) : v.swap.setPlayer x.owner.opponent
      { v.swap.player x.owner.opponent with
        discard := (v.swap.player x.owner.opponent).discard ++ x.chain.layers } =
      (v.setPlayer x.owner { v.player x.owner with
        discard := (v.player x.owner).discard ++ x.chain.layers }).swap := by
    rw [GameState.swap_setPlayer, GameState.swap_player, PlayerId.opponent_opponent]
    rfl
  unfold Destruction.discardSummon
  simp only [htaken]
  exact hpile _

theorem discardDestroyedChain_swap :
    Destruction.discardDestroyedChain s.swap p =
      swapResult (Destruction.discardDestroyedChain s p) := by
  have hcontroller : Destruction.destroyedController s.swap p =
      (Destruction.destroyedController s p).map (Option.map PlayerId.opponent) :=
    firstDestroyed_swap s p (Destruction.orderedPlayers s)
  unfold Destruction.discardDestroyedChain
  rw [hcontroller]
  cases Destruction.destroyedController s p with
  | error b => rfl
  | ok found =>
      cases found with
      | none => rfl
      | some c =>
          simp only [Except.map, Option.map_some, GameState.swap_player,
            PlayerId.opponent_opponent, PlayerState.swap_summonAt]
          cases (s.player c).summonAt p with
          | none => rfl
          | some x =>
              simp only [Option.map_some, discardSummon_swap, Triggers.discoverFront,
                orderedPlayers_swap, candidates_swap, swapResult, GameState.swap_pushFront]
              rfl

theorem recordMainLoss_swap : Destruction.recordMainLoss s.swap c.opponent =
    swapResult (Destruction.recordMainLoss s c) := by
  simp only [Destruction.recordMainLoss, GameState.swap_player, PlayerId.opponent_opponent,
    swapResult, GameState.swap_setPlayer]
  rfl

theorem recoverPrize_swap :
    Destruction.recoverPrize s.swap c.opponent = swapResult (Destruction.recoverPrize s c) := by
  simp only [Destruction.recoverPrize, GameState.swap_player, PlayerId.opponent_opponent,
    PlayerState.swap_prizes]
  split
  · rfl
  · simp [swapResult, GameState.swap, PendingInput.swap]

theorem promoteFromSlot_swap (slot : BenchSlot) :
    Destruction.promoteFromSlot s.swap c.opponent slot =
      swapResult (Destruction.promoteFromSlot s c slot) := by
  simp only [Destruction.promoteFromSlot, GameState.swap_player, PlayerId.opponent_opponent,
    PlayerState.swap_bench, Bench.swap_get]
  cases (s.player c).bench.get slot with
  | none => rfl
  | some x =>
      simp only [Option.map_some, swapResult, GameState.swap_setPlayer, PlayerState.swap,
        Bench.swap_set, Option.map_none]
      rfl

theorem promoteBenchSummon_swap : Destruction.promoteBenchSummon s.swap c.opponent =
    swapResult (Destruction.promoteBenchSummon s c) := by
  simp only [Destruction.promoteBenchSummon, GameState.swap_player, PlayerId.opponent_opponent,
    occupiedBenchSlots_swap]
  split
  · rfl
  · exact promoteFromSlot_swap s c _
  · rfl

theorem resolveMovementConsequences_swap :
    Destruction.resolveMovementConsequences s.swap c.opponent =
      swapResult (Destruction.resolveMovementConsequences s c) := by
  simp only [Destruction.resolveMovementConsequences, GameState.swap_player,
    PlayerId.opponent_opponent, PlayerState.swap_main, Option.isSome_map]
  split <;> rfl

theorem lossCheck_swap : Loss.check s.swap c.opponent = swapResult (Loss.check s c) := by
  simp only [Loss.check, GameState.swap_player, PlayerId.opponent_opponent,
    PlayerState.swap_mainLosses, PlayerState.swap_main, PlayerState.swap_bench, Bench.swap_get,
    Option.isNone_map]
  split
  · rfl
  · split <;> rfl

/-! ## Upkeep -/

theorem upkeepPositions_swap (ps : PlayerState) :
    Upkeep.controlledPositions ps.swap = Upkeep.controlledPositions ps := by
  simp [Upkeep.controlledPositions]

/-- One write to every Summon of a player. -/
theorem mapBoard_swap {f : SummonInstance → SummonInstance} (hf : ∀ x, f x.swap = (f x).swap)
    (ps : PlayerState) :
    { ps.swap with main := ps.swap.main.map f, bench := ps.swap.bench.mapSummons f } =
      PlayerState.swap { ps with main := ps.main.map f, bench := ps.bench.mapSummons f } := by
  have hmain : ps.swap.main.map f = (ps.main.map f).map SummonInstance.swap := by
    rw [PlayerState.swap_main]
    cases ps.main with
    | none => rfl
    | some x => exact congrArg some (hf x)
  simp only [hmain, PlayerState.swap_bench, Bench.swap_mapSummons _ hf]
  rfl

theorem readyAll_swap : Upkeep.readyAll s.swap = swapResult (Upkeep.readyAll s) := by
  have hboard := mapBoard_swap (f := Upkeep.readySummon) (fun _ => rfl)
    (s.player s.turn.activePlayer)
  simp only [Upkeep.readyAll, GameState.swap_turn, TurnState.swap_active, GameState.swap_player,
    PlayerId.opponent_opponent, hboard, swapResult, GameState.swap_setPlayer, upkeepPositions_swap]
  rfl

theorem executeDraw_swap :
    Resolution.executeDraw s.swap = swapResult (Resolution.executeDraw s) := by
  simp only [Resolution.executeDraw, Upkeep.drawCard, GameState.swap_turn, TurnState.swap_active,
    GameState.swap_player, PlayerId.opponent_opponent, PlayerState.swap_deck]
  cases (s.player s.turn.activePlayer).deck with
  | nil => rfl
  | cons card deck =>
      simp only [swapResult, GameState.swap_setPlayer]
      rfl

/-! ## One iteration -/

/-- **One work item** in the swapped state. -/
theorem execute_swap (item : WorkItem) :
    Resolution.execute s.swap item.swap = swapResult (Resolution.execute s item) := by
  cases item with
  | destructionCheck p => exact check_swap s p
  | discardDestroyedChain p => exact discardDestroyedChain_swap s p
  | recordMainLoss c => exact recordMainLoss_swap s c
  | recoverPrize c => exact recoverPrize_swap s c
  | promoteBenchSummon c => exact promoteBenchSummon_swap s c
  | resolveMovementConsequences c => exact resolveMovementConsequences_swap s c
  | movementTrigger step c p => exact movementTrigger_swap s c p step
  | fireTrigger c p ev ability => exact fireQueued_swap s c p ev ability
  | lossCheck c => exact lossCheck_swap s c
  | readyAll => exact readyAll_swap s
  | drawCard => exact executeDraw_swap s
  | produceMana c source => exact produceMana_swap s c source
  | beginMainPhase => rfl

theorem attackerEffects_swap :
    Resolution.attackerEffects s.swap c.opponent = Resolution.attackerEffects s c := by
  simp only [Resolution.attackerEffects, GameState.swap_player, PlayerId.opponent_opponent,
    PlayerState.swap_main, GameState.swap_cards]
  cases (s.player c).main <;> rfl

theorem placeSpell_swap (card : CardRef) :
    Resolution.placeSpell s.swap c.opponent card = (Resolution.placeSpell s c card).swap := by
  simp only [Resolution.placeSpell, GameState.swap_cards, GameState.swap_player,
    PlayerId.opponent_opponent]
  split
  · rw [GameState.swap_setPlayer]
    rfl
  · rw [GameState.swap_setPlayer]
    rfl

theorem resolveItem_swap (item : StackItem) :
    Resolution.resolveItem s.swap item.swap = swapResult (Resolution.resolveItem s item) := by
  cases item with
  | attack attacker target =>
      simp only [StackItem.swap, Resolution.resolveItem, Resolution.resolveAttack,
        attackerEffects_swap]
      cases Resolution.attackerEffects s attacker with
      | none => rfl
      | some r => exact applyLeaves_swap (.attack attacker .main r.1) [target] r.2 s
  | spell caster card targets =>
      have hleaves := applyLeaves_swap (.spell caster card.instanceId card.defId) targets
        (Resolution.spellEffects s.cards card.defId) s
      simp only [EffectSource.swap] at hleaves
      simp only [StackItem.swap, Resolution.resolveItem, Resolution.resolveSpell,
        GameState.swap_cards, hleaves, swapResult, placeSpell_swap]
  | trigger controller source ability ev targets effects =>
      exact applyLeaves_swap (.trigger controller source ability) targets effects s

theorem closeSegment_swap :
    Resolution.closeSegment s.swap = (Resolution.closeSegment s).swap := by
  simp only [Resolution.closeSegment, GameState.swap_bases, GameState.swap_stack, List.length_map]
  split <;> rfl

theorem resolveTopStackItem_swap :
    Resolution.resolveTopStackItem s.swap = swapResult (Resolution.resolveTopStackItem s) := by
  have hpop : ({ s.swap with stack := s.swap.stack.dropLast } : GameState) =
      GameState.swap { s with stack := s.stack.dropLast } := by
    simp only [GameState.swap_stack, ← List.map_dropLast]
    rfl
  unfold Resolution.resolveTopStackItem
  rw [hpop, GameState.swap_stack, List.getLast?_map]
  cases s.stack.getLast? with
  | none => rfl
  | some item =>
      simp only [Option.map_some, resolveItem_swap, swapResult, closeSegment_swap]
      rfl

/-- **One iteration of the drain** in the swapped state. -/
theorem drainStep_swap :
    Resolution.drainStep s.swap = (Resolution.drainStep s).map swapResult := by
  unfold Resolution.drainStep Resolution.stackHasUnresolvedItems
  simp only [GameState.swap_pending, Option.isSome_map, GameState.swap_status,
    GameStatus.swap_isPlaying, GameState.swap_turn, TurnState.swap_window, segmentBase_swap,
    GameState.swap_stack, List.length_map, resolveTopStackItem_swap, GameState.swap_work]
  split
  · rfl
  · split
    · rfl
    · split
      · rfl
      · cases s.work with
        | nil => rfl
        | cons item work =>
            exact congrArg some (execute_swap ({ s with work := work } : GameState) item)

end

end Summoners
