import Summoners.Fixtures
import Summoners.Symmetry.Drain

/-! # Seat symmetry of `apply`

The thirteen handlers and the gates before them, and from them the whole of `apply`. The one handler
that names a seat is `convert_coin`, which needs the Coin.
-/

namespace Summoners
set_option autoImplicit false

open RunToCompletion

/-- The answer of a handler with the seats exchanged: the same error, or the swapped outcome. -/
def swapAnswer (r : Except ActionError ActionOutcome) : Except ActionError ActionOutcome :=
  r.map ActionOutcome.swap

@[simp] theorem swapAnswer_error (e : ActionError) : swapAnswer (.error e) = .error e := rfl

@[simp] theorem swapAnswer_ok (o : ActionOutcome) : swapAnswer (.ok o) = .ok o.swap := rfl

section
variable (s : GameState) (c : PlayerId)

/-! ## Gates -/

theorem requiredActor_swap : Apply.requiredActor s.swap = (Apply.requiredActor s).opponent := by
  unfold Apply.requiredActor
  simp only [GameState.swap_pending, GameState.swap_turn, TurnState.swap_window]
  cases s.pending with
  | some pending => cases pending <;> rfl
  | none => cases s.turn.window <;> rfl

theorem checkActor_swap (actor : PlayerId) :
    Apply.checkActor s.swap actor.opponent = Apply.checkActor s actor := by
  simp only [Apply.checkActor, requiredActor_swap, PlayerId.opponent_inj]

theorem requireFreeMainPhase_swap :
    Board.requireFreeMainPhase s.swap = Board.requireFreeMainPhase s := by
  simp only [Board.requireFreeMainPhase, GameState.swap_pending, Option.isSome_map,
    GameState.swap_turn, TurnState.swap_phase, TurnState.swap_window]

theorem paymentEvents_swap (payment : Payment) :
    payment.events c.opponent = (payment.events c).map GameEvent.swap := by
  simp [Payment.events, GameEvent.swap]

theorem actor_swap (a : GameAction) : a.swap.actor = a.actor.opponent := by
  cases a <;> rfl

/-! ## The free Main Phase -/

theorem playSummon_swap (card : CardInstanceId) (slot : BenchSlot) :
    Board.playSummon s.swap c.opponent card slot = swapAnswer (Board.playSummon s c card slot) := by
  unfold Board.playSummon
  rw [requireFreeMainPhase_swap]
  cases Board.requireFreeMainPhase s with
  | some e => rfl
  | none =>
      simp only [GameState.swap_player, PlayerId.opponent_opponent, PlayerState.swap_bench,
        Bench.swap_get, Option.isSome_map, PlayerState.swap_hand, GameState.swap_cards]
      split
      · rfl
      · cases removeFirst (fun r => decide (r.instanceId = card)) (s.player c).hand with
        | none => rfl
        | some taken =>
            simp only
            cases s.cards.get taken.1.defId with
            | none => rfl
            | some entity =>
                simp only
                split
                · rfl
                · simp only [swapAnswer_ok, ActionOutcome.swap, GameState.swap_setPlayer,
                    PlayerState.swap, Bench.swap_set]
                  rfl

theorem upgradeSummon_swap (card : CardInstanceId) (p : Position) :
    Board.upgradeSummon s.swap c.opponent card p = swapAnswer (Board.upgradeSummon s c card p) := by
  unfold Board.upgradeSummon
  rw [requireFreeMainPhase_swap]
  cases Board.requireFreeMainPhase s with
  | some e => rfl
  | none =>
      simp only [GameState.swap_player, PlayerId.opponent_opponent, PlayerState.swap_summonAt,
        PlayerState.swap_hand, GameState.swap_cards]
      cases hx : (s.player c).summonAt p with
      | none => rfl
      | some x =>
          have hturn : x.swap.turn = x.turn := rfl
          have hchain : x.swap.chain = x.chain := rfl
          simp only [Option.map_some, hturn, hchain]
          cases x.turn.upgrade with
          | playedThisTurn => rfl
          | upgradedThisTurn => rfl
          | available =>
              simp only
              cases removeFirst (fun r => decide (r.instanceId = card)) (s.player c).hand with
              | none => rfl
              | some taken =>
                  simp only
                  cases s.cards.get taken.1.defId with
                  | none => rfl
                  | some entity =>
                      simp only
                      split
                      · rfl
                      · split
                        · split
                          · rfl
                          · split
                            · simp only [swapAnswer_ok, ActionOutcome.swap,
                                GameState.swap_setPlayer, PlayerState.swap_setAt]
                              rfl
                            · rfl
                        · rfl

theorem opposingRetreatCostDelta_swap : Board.opposingRetreatCostDelta s.swap c.opponent =
    Board.opposingRetreatCostDelta s c := by
  simp only [Board.opposingRetreatCostDelta, GameState.swap_player, PlayerId.opponent_opponent,
    controlledSummons_swap, List.map_map, GameState.swap_cards]
  rfl

theorem retreat_swap (slot : BenchSlot) (hint : Option ManaType) :
    Board.retreat s.swap c.opponent slot hint = swapAnswer (Board.retreat s c slot hint) := by
  unfold Board.retreat
  rw [requireFreeMainPhase_swap, opposingRetreatCostDelta_swap]
  cases Board.requireFreeMainPhase s with
  | some e => rfl
  | none =>
      simp only [GameState.swap_turn, TurnState.swap_retreatUsed, GameState.swap_player,
        PlayerId.opponent_opponent, PlayerState.swap_main, PlayerState.swap_bench, Bench.swap_get,
        PlayerState.swap_mana, GameState.swap_cards]
      split
      · rfl
      · cases (s.player c).main with
        | none => rfl
        | some x =>
            cases (s.player c).bench.get slot with
            | none => rfl
            | some y =>
                have hchain : x.swap.chain = x.chain := rfl
                simp only [Option.map_some, hchain]
                split
                · rfl
                · split
                  · rfl
                  · split
                    · rfl
                    · rename_i payment _
                      simp only [swapAnswer_ok, ActionOutcome.swap, GameState.swap_pushBack,
                        GameState.swap_setPlayer, Effects.exchange, PlayerState.swap,
                        Bench.swap_set, Option.map_some, exchangeSteps_swap, paymentEvents_swap,
                        List.map_append]
                      rfl

theorem validTargets_swap (targets : List Position) (leaf : EffectLeaf) :
    Skills.validTargets s.swap c.opponent targets leaf = Skills.validTargets s c targets leaf := by
  cases leaf with
  | moveSummon =>
      simp only [Skills.validTargets, GameState.swap_player, PlayerId.opponent_opponent]
      unfold Skills.validMoveSummon
      split <;> simp
  | swapPositions =>
      simp only [Skills.validTargets, GameState.swap_player, PlayerId.opponent_opponent]
      unfold Skills.validSwapPositions
      split <;> simp
  | swapOpposingPositions =>
      simp only [Skills.validTargets, GameState.swap_player, PlayerId.opponent_opponent]
      unfold Skills.validSwapOpposingPositions
      split
      · simp only [PlayerState.swap_bench, Bench.swap_get, Option.isSome_map, PlayerState.swap_main,
          Option.any_map]
        rfl
      · rfl
  | _ => rfl

theorem activateSkill_swap (p : Position) (ability : EntityId) (targets : List Position)
    (hint : Option ManaType) : Skills.activateSkill s.swap c.opponent p ability targets hint =
      swapAnswer (Skills.activateSkill s c p ability targets hint) := by
  have hvalid : Skills.validTargets s.swap c.opponent targets = Skills.validTargets s c targets :=
    funext (validTargets_swap s c targets)
  unfold Skills.activateSkill
  rw [requireFreeMainPhase_swap, hvalid]
  cases Board.requireFreeMainPhase s with
  | some e => rfl
  | none =>
      simp only [GameState.swap_player, PlayerId.opponent_opponent, PlayerState.swap_summonAt,
        PlayerState.swap_mana, GameState.swap_cards]
      cases (s.player c).summonAt p with
      | none => rfl
      | some x =>
          have hready : x.swap.readiness = x.readiness := rfl
          have hchain : x.swap.chain = x.chain := rfl
          simp only [Option.map_some, hready, hchain]
          cases x.readiness with
          | exhausted => rfl
          | ready =>
              simp only
              split
              · rfl
              · split
                · rfl
                · split
                  · rfl
                  · split
                    · rfl
                    · rename_i payment _
                      have hpaid : s.swap.setPlayer c.opponent
                          ({ (s.player c).swap with mana := payment.bank }.setAt p
                            (some (Skills.exhaust x.swap))) =
                          (s.setPlayer c ({ s.player c with mana := payment.bank }.setAt p
                            (some (Skills.exhaust x)))).swap := by
                        rw [GameState.swap_setPlayer, PlayerState.swap_setAt]
                        rfl
                      have hleaves := fun leaves u =>
                        applyLeaves_swap (.skill c p ability) targets leaves u
                      simp only [EffectSource.swap] at hleaves
                      simp only [hpaid, hleaves, swapAnswer_ok, ActionOutcome.swap, swapResult,
                        paymentEvents_swap, List.map_append]
                      rfl

/-! ## The Stack -/

theorem declareAttack_swap (target : Position) (hint : Option ManaType) :
    Stack.declareAttack s.swap c.opponent target hint =
      swapAnswer (Stack.declareAttack s c target hint) := by
  unfold Stack.declareAttack
  simp only [GameState.swap_pending, Option.isSome_map, GameState.swap_turn,
    TurnState.swap_attackUsed, TurnState.swap_phase, TurnState.swap_window, GameState.swap_player,
    PlayerId.opponent_opponent, PlayerState.swap_main, PlayerState.swap_mana, GameState.swap_cards]
  split
  · rfl
  · split
    · rfl
    · split
      · rfl
      · split
        · rfl
        · cases (s.player c).main with
          | none => rfl
          | some x =>
              have hchain : x.swap.chain = x.chain := rfl
              simp only [Option.map_some, hchain]
              split
              · rfl
              · split
                · rfl
                · split
                  · rfl
                  · simp only [swapAnswer_ok, ActionOutcome.swap, GameState.swap_setPlayer,
                      paymentEvents_swap, List.map_append]
                    simp [GameState.swap, TurnState.swap, windowAfterPlay_swap, StackItem.swap,
                      GameEvent.swap, PlayerState.swap]

theorem nearestAttack_swap : Stack.nearestAttack s.swap =
    (Stack.nearestAttack s).map (fun r => (r.1.opponent, r.2)) := by
  unfold Stack.nearestAttack
  rw [segmentBase_swap, GameState.swap_stack, ← List.map_drop, ← List.map_reverse]
  generalize (s.stack.drop (Stack.segmentBase s)).reverse = items
  induction items with
  | nil => rfl
  | cons item items ih =>
      rw [List.map_cons, List.findSome?_cons, List.findSome?_cons, ih]
      cases item <;> rfl

theorem attackResponsesBlocked_swap :
    Stack.attackResponsesBlocked s.swap = Stack.attackResponsesBlocked s := by
  unfold Stack.attackResponsesBlocked
  rw [nearestAttack_swap]
  cases Stack.nearestAttack s with
  | none => rfl
  | some r =>
      simp only [Option.map_some, GameState.swap_player, PlayerId.opponent_opponent,
        PlayerState.swap_main, GameState.swap_cards]
      cases (s.player r.1).main with
      | none => rfl
      | some x =>
          have hchain : x.swap.chain = x.chain := rfl
          simp only [Option.map_some, hchain]
          split
          · rfl
          · split
            · rfl
            · simp only [conditionHolds_swap]

theorem restingInOwnMain_swap :
    Turn.restingInOwnMain s.swap c.opponent = Turn.restingInOwnMain s c := by
  have hactive : decide (c.opponent = s.turn.activePlayer.opponent) =
      decide (c = s.turn.activePlayer) := decide_eq_decide.mpr PlayerId.opponent_inj
  simp only [Turn.restingInOwnMain, GameState.swap_turn, TurnState.swap_window, Option.isNone_map,
    TurnState.swap_phase, TurnState.swap_active]
  exact congrArg (s.turn.window.isNone && decide (s.turn.phase = .main) && ·) hactive

theorem holdsPriority_swap : Turn.holdsPriority s.swap c.opponent = Turn.holdsPriority s c := by
  simp only [Turn.holdsPriority, GameState.swap_turn, TurnState.swap_window, Option.any_map,
    StackWindow.swap, PlayerId.opponent_inj]

theorem legalTiming_swap (timing : SpellTiming) :
    Stack.legalTiming s.swap c.opponent timing = Stack.legalTiming s c timing := by
  cases timing <;> simp only [Stack.legalTiming, restingInOwnMain_swap, holdsPriority_swap]

theorem castSpell_swap (card : CardInstanceId) (targets : List Position)
    (hint : Option ManaType) : Stack.castSpell s.swap c.opponent card targets hint =
      swapAnswer (Stack.castSpell s c card targets hint) := by
  have hset : (s.swap.turn.spellPlayedThisTurn.set c.opponent true) =
      ⟨(s.turn.spellPlayedThisTurn.set c true).two, (s.turn.spellPlayedThisTurn.set c true).one⟩ := by
    cases c <;> rfl
  unfold Stack.castSpell
  simp only [GameState.swap_pending, Option.isSome_map, GameState.swap_player,
    PlayerId.opponent_opponent, PlayerState.swap_hand, PlayerState.swap_mana, GameState.swap_cards,
    legalTiming_swap, holdsPriority_swap, attackResponsesBlocked_swap, hset]
  split
  · rfl
  · cases removeFirst (fun r => decide (r.instanceId = card)) (s.player c).hand with
    | none => rfl
    | some taken =>
        simp only
        split
        · rfl
        · split
          · rfl
          · split
            · rfl
            · split
              · rfl
              · split
                · rfl
                · simp only [swapAnswer_ok, ActionOutcome.swap, GameState.swap_setPlayer,
                    paymentEvents_swap, List.map_append]
                  simp [GameState.swap, TurnState.swap, windowAfterPlay_swap, StackItem.swap,
                    GameEvent.swap, PlayerState.swap]

/-! ## The turn -/

theorem endTurn_swap :
    Turn.endTurn s.swap c.opponent = swapAnswer (Turn.endTurn s c) := by
  unfold Turn.endTurn
  simp only [GameState.swap_pending, Option.isSome_map, GameState.swap_turn, TurnState.swap_window,
    TurnState.swap_phase, TurnState.swap_active, ne_eq, PlayerId.opponent_inj]
  split <;> rfl

/-- The boards of both players as a new turn finds them. -/
theorem handoverBoards_swap (players : PerPlayer PlayerState) :
    Turn.handoverBoards ⟨players.two.swap, players.one.swap⟩ c.opponent =
      ⟨(Turn.handoverBoards players c).two.swap, (Turn.handoverBoards players c).one.swap⟩ := by
  have hreset (ps : PlayerState) : Upkeep.resetPerTurnSummonRecords ps.swap =
      (Upkeep.resetPerTurnSummonRecords ps).swap :=
    mapBoard_swap (f := Upkeep.clearPerTurnFlags) (fun _ => rfl) ps
  have hexpire (ps : PlayerState) : Turn.expireCannotBeMovedByOpponent ps.swap =
      (Turn.expireCannotBeMovedByOpponent ps).swap :=
    mapBoard_swap (f := Turn.expireMarker) (fun _ => rfl) ps
  cases c <;>
    simp only [Turn.handoverBoards, PerPlayer.set, PerPlayer.get, PlayerId.opponent, hreset, hexpire]

theorem handover_swap : Turn.handover s.swap = (Turn.handover s).swap := by
  have hnext : ({ s.swap with
      turn := Turn.freshTurn s.swap.turn.activePlayer.opponent
      players := Turn.handoverBoards s.swap.players s.swap.turn.activePlayer } : GameState) =
      GameState.swap { s with
        turn := Turn.freshTurn s.turn.activePlayer.opponent
        players := Turn.handoverBoards s.players s.turn.activePlayer } := by
    have hboards := handoverBoards_swap s.turn.activePlayer s.players
    simp only [GameState.swap, TurnState.swap, hboards]
    rfl
  have hready (v : GameState) : v.swap.pushBack [.readyAll] = (v.pushBack [.readyAll]).swap := by
    rw [GameState.swap_pushBack]
    rfl
  have hdiscover (v : GameState) (q : PlayerId) :
      Triggers.discoverBack v.swap [q.opponent] .yourUpkeep =
        (Triggers.discoverBack v [q] .yourUpkeep).swap := by
    have hcandidates := candidates_swap v .yourUpkeep [q]
    rw [List.map_cons, List.map_nil] at hcandidates
    simp only [Triggers.discoverBack, GameState.swap_pushBack, hcandidates]
  have hsteps (v : GameState) (q : PlayerId) :
      v.swap.pushBack [.drawCard, .produceMana q.opponent .player, .beginMainPhase] =
        (v.pushBack [.drawCard, .produceMana q .player, .beginMainPhase]).swap := by
    rw [GameState.swap_pushBack]
    rfl
  unfold Turn.handover
  simp only [hnext, hready]
  rw [GameState.swap_turn, TurnState.swap_active, hdiscover, hsteps]
  rfl

theorem pass_swap : Stack.pass s.swap c.opponent = swapAnswer (Stack.pass s c) := by
  have hover : Turn.handover { s.swap with turn := { s.swap.turn with window := none } } =
      (Turn.handover { s with turn := { s.turn with window := none } }).swap :=
    handover_swap { s with turn := { s.turn with window := none } }
  unfold Stack.pass
  simp only [hover]
  simp only [GameState.swap_pending, Option.isSome_map, GameState.swap_turn, TurnState.swap_window,
    GameState.swap_stack, List.isEmpty_map]
  split
  · rfl
  · cases s.turn.window with
    | none => rfl
    | some w =>
        have hholder : w.swap.holder = w.holder.opponent := rfl
        have hprior : w.swap.priorPass = w.priorPass := rfl
        simp only [Option.map_some, hholder, hprior, ne_eq, PlayerId.opponent_inj]
        split
        · rfl
        · split
          · split <;> rfl
          · rfl

theorem convertCoin_swap (t : ManaType) (hcoin : s.coin = none) :
    Turn.convertCoin s.swap c.opponent t = swapAnswer (Turn.convertCoin s c t) := by
  unfold Turn.convertCoin
  simp only [GameState.swap_pending, Option.isSome_map, restingInOwnMain_swap, holdsPriority_swap,
    GameState.swap_coin, hcoin, Option.isNone_none, or_true, if_true]
  split
  · rfl
  · split <;> rfl

theorem chooseManaType_swap (t : ManaType) :
    Turn.chooseManaType s.swap c.opponent t = swapAnswer (Turn.chooseManaType s c t) := by
  unfold Turn.chooseManaType
  simp only [GameState.swap_pending]
  cases s.pending with
  | none => rfl
  | some pending =>
      cases pending with
      | promotion player => rfl
      | prizePick chooser => rfl
      | manaProduction player source =>
          simp only [Option.map_some, PendingInput.swap, ne_eq, PlayerId.opponent_inj,
            GameState.swap_cards, GameState.swap_player, PlayerId.opponent_opponent,
            availableTypes_swap]
          split
          · rfl
          · split
            · rfl
            · simp only [swapAnswer_ok, ActionOutcome.swap, GameState.swap_setPlayer, bank_swap]
              rfl

/-! ## Answers -/

theorem pending_swap (pending : PendingInput) :
    s.swap.pending = some pending.swap ↔ s.pending = some pending := by
  rw [GameState.swap_pending]
  cases hp : s.pending with
  | none => simp
  | some q =>
      cases q <;> cases pending <;>
        simp [PendingInput.swap]

theorem answerPromotion_swap (slot : BenchSlot) :
    Destruction.answerPromotion s.swap c.opponent slot =
      swapAnswer (Destruction.answerPromotion s c slot) := by
  have hpending := pending_swap s (.promotion c)
  simp only [PendingInput.swap] at hpending
  unfold Destruction.answerPromotion
  simp only [hpending, promoteFromSlot_swap, GameState.swap_player, PlayerId.opponent_opponent,
    PlayerState.swap_bench, Bench.swap_get, Option.isNone_map]
  split
  · split <;> rfl
  · rfl

theorem answerPrize_swap (i : ℕ) :
    Destruction.answerPrize s.swap c.opponent i = swapAnswer (Destruction.answerPrize s c i) := by
  have hpending := pending_swap s (.prizePick c)
  simp only [PendingInput.swap] at hpending
  unfold Destruction.answerPrize
  simp only [hpending, GameState.swap_player, PlayerState.swap_prizes, PlayerId.opponent_opponent]
  split
  · cases (s.player c.opponent).prizes[i]? with
    | none => rfl
    | some card =>
        simp only [swapAnswer_ok, ActionOutcome.swap, GameState.swap, GameState.setPlayer]
        cases c <;> rfl
  · rfl

/-! ## Dispatch -/

/-- **Every handler** answers the swapped action in the swapped state with the swapped answer. -/
theorem dispatch_swap (a : GameAction) (hcoin : s.coin = none) :
    Apply.dispatch s.swap a.swap = swapAnswer (Apply.dispatch s a) := by
  cases a with
  | playSummon c card slot => exact playSummon_swap s c card slot
  | upgradeSummon c card p => exact upgradeSummon_swap s c card p
  | castSpell c card targets hint => exact castSpell_swap s c card targets hint
  | activateSkill c p ability targets hint => exact activateSkill_swap s c p ability targets hint
  | retreat c slot hint => exact retreat_swap s c slot hint
  | declareAttack c target hint => exact declareAttack_swap s c target hint
  | endTurn c => exact endTurn_swap s c
  | passPriority c => exact pass_swap s c
  | convertCoin c t => exact convertCoin_swap s c t hcoin
  | chooseManaType c t => exact chooseManaType_swap s c t
  | choosePromotion c slot => exact answerPromotion_swap s c slot
  | choosePrize c i => exact answerPrize_swap s c i
  | resign c => rfl

theorem handle_swap (a : GameAction) (hcoin : s.coin = none) :
    Apply.handle s.swap a.swap = swapAnswer (Apply.handle s a) := by
  have hdispatch := dispatch_swap s a hcoin
  have hactor := checkActor_swap s a.actor
  rw [← actor_swap] at hactor
  unfold Apply.handle
  rw [GameState.swap_status]
  cases s.status with
  | ended o => rfl
  | broken b => rfl
  | playing =>
      cases a with
      | resign c => rfl
      | _ =>
          simp only [GameStatus.swap, GameAction.swap] at hactor hdispatch ⊢
          rw [hactor]
          split
          · rfl
          · exact hdispatch

end

/-- The whole drain with the seats exchanged. -/
theorem drain_swap (fuel : ℕ) (s : GameState) :
    Resolution.drain fuel s.swap = (Resolution.drain fuel s).map swapResult :=
  Machine.settle_map (M := engine) (fun s => drainStep_swap s) fuel s

/-- **Seat symmetry.** Once the Coin has left the game, exchanging the seats in the state and in the
action exchanges them in the answer: the same error, or the swapped state with the swapped events in
the same order, through the whole drain. -/
theorem seat_symmetry {s : GameState} (hcoin : s.coin = none) (a : GameAction) (fuel : ℕ) :
    apply fuel s.swap a.swap = (apply fuel s a).map swapAnswer := by
  unfold apply
  rw [handle_swap s a hcoin]
  cases Apply.handle s a with
  | error e => rfl
  | ok o =>
      cases a with
      | resign c => rfl
      | _ =>
          simp only [swapAnswer_ok, GameAction.swap, ActionOutcome.swap, drain_swap, Option.map_map,
            Function.comp_def, swapResult, List.map_append]

open Fixtures in
/-- The pass that resolves an Attack, destroys the Summon in Main and promotes from the Bench, made
from the other seat. -/
theorem seat_symmetry_attack :
    ∃ start s evs, Reachable start evs s ∧ s.turn.activePlayer = .one ∧
      apply 60 s.swap (.passPriority .two) = (apply 60 s (.passPriority .one)).map swapAnswer ∧
      ∃ o, acceptedOutcome 60 s (.passPriority .one) = some o ∧
        .summonPromoted .two .first ∈ o.events := by
  have hdemo : (demo striking (facing (lone (inPlay 1 1))
      (benching (lone (inPlay 2 1)) .first (inPlay 3 1)))
      [.declareAttack .one .main none, .passPriority .two]).map (fun r =>
        decide (r.2.1.coin = none ∧ r.2.1.turn.activePlayer = .one ∧
          (acceptedOutcome 60 r.2.1 (.passPriority .one)).any (fun o =>
            decide (.summonPromoted .two .first ∈ o.events)) = true)) = some true := by
    decide +kernel
  obtain ⟨⟨start, s, evs⟩, hr, hv⟩ := Option.map_eq_some_iff.mp hdemo
  obtain ⟨hcoin, hactive, hpromoted⟩ := of_decide_eq_true hv
  obtain ⟨o, ho, hmem⟩ := (Option.any_eq_true _ _).mp hpromoted
  exact ⟨start, s, evs, (reachable_of_demo hr).2, hactive,
    seat_symmetry hcoin (.passPriority .one) 60, o, ho, of_decide_eq_true hmem⟩

end Summoners
