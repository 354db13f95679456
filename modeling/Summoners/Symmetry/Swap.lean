import Summoners.Engine.Apply

/-! # Exchanging the seats

`swap` exchanges Players One and Two everywhere in a state, an action, an event or an outcome. The
card set and the printed cards name no seat. The lemmas below push a swap through the reads and the
writes of a state.
-/

namespace Summoners
set_option autoImplicit false

/-! ## Data -/

def SummonInstance.swap (summon : SummonInstance) : SummonInstance :=
  { summon with owner := summon.owner.opponent, controller := summon.controller.opponent }

def Bench.swap (bench : Bench) : Bench := bench.mapSummons SummonInstance.swap

def PlayerState.swap (ps : PlayerState) : PlayerState :=
  { ps with main := ps.main.map SummonInstance.swap, bench := ps.bench.swap }

def StackWindow.swap (window : StackWindow) : StackWindow :=
  { window with holder := window.holder.opponent }

def TurnState.swap (turn : TurnState) : TurnState :=
  { turn with
    activePlayer := turn.activePlayer.opponent
    window := turn.window.map StackWindow.swap
    spellPlayedThisTurn := ⟨turn.spellPlayedThisTurn.two, turn.spellPlayedThisTurn.one⟩ }

def PendingInput.swap : PendingInput → PendingInput
  | .manaProduction player source => .manaProduction player.opponent source
  | .promotion player => .promotion player.opponent
  | .prizePick chooser => .prizePick chooser.opponent

def GameStatus.swap : GameStatus → GameStatus
  | .playing => .playing
  | .ended outcome => .ended ⟨outcome.winner.opponent, outcome.reason⟩
  | .broken breakage => .broken breakage

def StackItem.swap : StackItem → StackItem
  | .attack attacker target => .attack attacker.opponent target
  | .spell caster card targets => .spell caster.opponent card targets
  | .trigger controller source ability event targets effects =>
      .trigger controller.opponent source ability event targets effects

def WorkItem.swap : WorkItem → WorkItem
  | .destructionCheck position => .destructionCheck position
  | .discardDestroyedChain position => .discardDestroyedChain position
  | .recordMainLoss player => .recordMainLoss player.opponent
  | .recoverPrize player => .recoverPrize player.opponent
  | .promoteBenchSummon player => .promoteBenchSummon player.opponent
  | .resolveMovementConsequences player => .resolveMovementConsequences player.opponent
  | .movementTrigger step player position => .movementTrigger step player.opponent position
  | .fireTrigger player position event ability =>
      .fireTrigger player.opponent position event ability
  | .lossCheck player => .lossCheck player.opponent
  | .readyAll => .readyAll
  | .drawCard => .drawCard
  | .produceMana player source => .produceMana player.opponent source
  | .beginMainPhase => .beginMainPhase

def GameState.swap (s : GameState) : GameState where
  players := ⟨s.players.two.swap, s.players.one.swap⟩
  coin := s.coin
  turn := s.turn.swap
  stack := s.stack.map StackItem.swap
  stackSegmentBases := s.stackSegmentBases
  work := s.work.map WorkItem.swap
  pending := s.pending.map PendingInput.swap
  status := s.status.swap
  cards := s.cards

def EffectSource.swap : EffectSource → EffectSource
  | .attack c p a => .attack c.opponent p a
  | .spell c k d => .spell c.opponent k d
  | .skill c p a => .skill c.opponent p a
  | .trigger c p a => .trigger c.opponent p a

def DamageSource.swap : DamageSource → DamageSource
  | .attack c p a => .attack c.opponent p a
  | .spell c k d => .spell c.opponent k d
  | .skill c p a => .skill c.opponent p a
  | .trigger c p a => .trigger c.opponent p a

def DamageContext.swap (context : DamageContext) : DamageContext :=
  ⟨context.source.swap, context.target.controller.opponent, context.target.position⟩

def GameEvent.swap : GameEvent → GameEvent
  | .turnBegan player => .turnBegan player.opponent
  | .summonsReadied player positions => .summonsReadied player.opponent positions
  | .cardDrawn player card => .cardDrawn player.opponent card
  | .manaProduced player source manaType => .manaProduced player.opponent source manaType
  | .summonPlayed player card slot => .summonPlayed player.opponent card slot
  | .summonUpgraded player card position => .summonUpgraded player.opponent card position
  | .spellCast player card targets => .spellCast player.opponent card targets
  | .skillActivated player position ability => .skillActivated player.opponent position ability
  | .attackDeclared player target => .attackDeclared player.opponent target
  | .priorityPassed player => .priorityPassed player.opponent
  | .stackItemResolved item => .stackItemResolved item.swap
  | .damageCalculationStarted context base constraints =>
      .damageCalculationStarted context.swap base constraints
  | .damageAdjustmentApplied context stage operation origin input output =>
      .damageAdjustmentApplied context.swap stage operation origin input output
  | .damageAdjustmentSkipped context stage operation origin input constraint =>
      .damageAdjustmentSkipped context.swap stage operation origin input constraint
  | .damageApplied context amount before after => .damageApplied context.swap amount before after
  | .healed position amount => .healed position amount
  | .summonDestroyed position owner => .summonDestroyed position owner.opponent
  | .prizeRecovered player card => .prizeRecovered player.opponent card
  | .prizesViewed player prizes => .prizesViewed player.opponent prizes
  | .summonPromoted player slot => .summonPromoted player.opponent slot
  | .summonsSwapped player slot => .summonsSwapped player.opponent slot
  | .triggerFired controller position event ability =>
      .triggerFired controller.opponent position event ability
  | .coinConverted player manaType => .coinConverted player.opponent manaType
  | .manaDeducted player manaType amount => .manaDeducted player.opponent manaType amount
  | .gameEnded winner reason => .gameEnded winner.opponent reason

def GameAction.swap : GameAction → GameAction
  | .playSummon player card slot => .playSummon player.opponent card slot
  | .upgradeSummon player card position => .upgradeSummon player.opponent card position
  | .castSpell player card targets manaHint => .castSpell player.opponent card targets manaHint
  | .activateSkill player position ability targets manaHint =>
      .activateSkill player.opponent position ability targets manaHint
  | .retreat player slot manaHint => .retreat player.opponent slot manaHint
  | .declareAttack player target manaHint => .declareAttack player.opponent target manaHint
  | .endTurn player => .endTurn player.opponent
  | .passPriority player => .passPriority player.opponent
  | .convertCoin player manaType => .convertCoin player.opponent manaType
  | .chooseManaType player manaType => .chooseManaType player.opponent manaType
  | .choosePromotion player slot => .choosePromotion player.opponent slot
  | .choosePrize player prizeIndex => .choosePrize player.opponent prizeIndex
  | .resign player => .resign player.opponent

/-- A state with the facts on the way to it. -/
def swapResult (r : GameState × List GameEvent) : GameState × List GameEvent :=
  (r.1.swap, r.2.map GameEvent.swap)

def ActionOutcome.swap (o : ActionOutcome) : ActionOutcome :=
  ⟨o.state.swap, o.events.map GameEvent.swap⟩

/-! ## Seats -/

@[simp] theorem PlayerId.opponent_inj {p q : PlayerId} : p.opponent = q.opponent ↔ p = q := by
  cases p <;> cases q <;> decide

@[simp] theorem EffectSource.swap_controller (source : EffectSource) :
    source.swap.controller = source.controller.opponent := by
  cases source <;> rfl

@[simp] theorem EffectSource.swap_position (source : EffectSource) :
    source.swap.position = source.position := by
  cases source <;> rfl

/-! ## Boards -/

section
variable (ps : PlayerState) (p : Position) (slot : BenchSlot)

@[simp] theorem Bench.swap_get (bench : Bench) :
    bench.swap.get slot = (bench.get slot).map SummonInstance.swap :=
  Bench.get_mapSummons _ _ _

@[simp] theorem Bench.swap_set (bench : Bench) (v : Option SummonInstance) :
    (bench.set slot v).swap = bench.swap.set slot (v.map SummonInstance.swap) := by
  cases slot <;> rfl

@[simp] theorem PlayerState.swap_main : ps.swap.main = ps.main.map SummonInstance.swap := rfl
@[simp] theorem PlayerState.swap_bench : ps.swap.bench = ps.bench.swap := rfl
@[simp] theorem PlayerState.swap_deck : ps.swap.deck = ps.deck := rfl
@[simp] theorem PlayerState.swap_hand : ps.swap.hand = ps.hand := rfl
@[simp] theorem PlayerState.swap_prizes : ps.swap.prizes = ps.prizes := rfl
@[simp] theorem PlayerState.swap_discard : ps.swap.discard = ps.discard := rfl
@[simp] theorem PlayerState.swap_mana : ps.swap.mana = ps.mana := rfl
@[simp] theorem PlayerState.swap_mainLosses : ps.swap.mainLosses = ps.mainLosses := rfl
@[simp] theorem PlayerState.swap_enchantments : ps.swap.enchantments = ps.enchantments := rfl

@[simp] theorem PlayerState.swap_summonAt :
    ps.swap.summonAt p = (ps.summonAt p).map SummonInstance.swap := by
  cases p with
  | main => rfl
  | bench slot => exact Bench.swap_get slot ps.bench

@[simp] theorem PlayerState.swap_setAt (v : Option SummonInstance) :
    (ps.setAt p v).swap = ps.swap.setAt p (v.map SummonInstance.swap) := by
  cases p with
  | main => rfl
  | bench slot => simp only [setAt, swap, Bench.swap_set]

@[simp] theorem swap_summons (bench : Bench) :
    bench.swap.summons = bench.summons.map SummonInstance.swap := by
  unfold Bench.summons Bench.swap Bench.mapSummons
  cases bench.first <;> cases bench.second <;> cases bench.third <;> rfl

/-- One write to every Summon of a board, the seats being exchanged with it. -/
theorem Bench.swap_mapSummons {f : SummonInstance → SummonInstance} (bench : Bench)
    (hf : ∀ x, f x.swap = (f x).swap) : bench.swap.mapSummons f = (bench.mapSummons f).swap := by
  unfold Bench.swap Bench.mapSummons
  cases bench.first <;> cases bench.second <;> cases bench.third <;> simp [hf]

end

/-! ## States -/

section
variable (s : GameState) (p : PlayerId)

@[simp] theorem GameState.swap_player : s.swap.player p = (s.player p.opponent).swap := by
  cases p <;> rfl

@[simp] theorem GameState.swap_setPlayer (ps : PlayerState) :
    (s.setPlayer p ps).swap = s.swap.setPlayer p.opponent ps.swap := by
  cases p <;> rfl

@[simp] theorem GameState.swap_pushBack (items : List WorkItem) :
    (s.pushBack items).swap = s.swap.pushBack (items.map WorkItem.swap) := by
  simp only [GameState.pushBack, GameState.swap, List.map_append]

@[simp] theorem GameState.swap_pushFront (items : List WorkItem) :
    (s.pushFront items).swap = s.swap.pushFront (items.map WorkItem.swap) := by
  simp only [GameState.pushFront, GameState.swap, List.map_append]

@[simp] theorem GameState.swap_breakGame (b : Breakage) :
    (s.breakGame b).swap = s.swap.breakGame b := rfl

@[simp] theorem GameState.swap_cards : s.swap.cards = s.cards := rfl
@[simp] theorem GameState.swap_coin : s.swap.coin = s.coin := rfl
@[simp] theorem GameState.swap_turn : s.swap.turn = s.turn.swap := rfl
@[simp] theorem GameState.swap_stack : s.swap.stack = s.stack.map StackItem.swap := rfl
@[simp] theorem GameState.swap_bases : s.swap.stackSegmentBases = s.stackSegmentBases := rfl
@[simp] theorem GameState.swap_work : s.swap.work = s.work.map WorkItem.swap := rfl
@[simp] theorem GameState.swap_pending : s.swap.pending = s.pending.map PendingInput.swap := rfl
@[simp] theorem GameState.swap_status : s.swap.status = s.status.swap := rfl

@[simp] theorem TurnState.swap_active (turn : TurnState) :
    turn.swap.activePlayer = turn.activePlayer.opponent := rfl
@[simp] theorem TurnState.swap_phase (turn : TurnState) : turn.swap.phase = turn.phase := rfl
@[simp] theorem TurnState.swap_window (turn : TurnState) :
    turn.swap.window = turn.window.map StackWindow.swap := rfl
@[simp] theorem TurnState.swap_attackUsed (turn : TurnState) :
    turn.swap.normalAttackUsed = turn.normalAttackUsed := rfl
@[simp] theorem TurnState.swap_retreatUsed (turn : TurnState) :
    turn.swap.normalRetreatUsed = turn.normalRetreatUsed := rfl

@[simp] theorem TurnState.swap_spellPlayed (turn : TurnState) :
    turn.swap.spellPlayedThisTurn.get p = turn.spellPlayedThisTurn.get p.opponent := by
  cases p <;> rfl

@[simp] theorem GameStatus.swap_isPlaying (st : GameStatus) : st.swap.isPlaying = st.isPlaying := by
  cases st <;> rfl

end

end Summoners
