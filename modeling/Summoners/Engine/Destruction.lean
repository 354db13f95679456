import Summoners.Engine.Triggers

/-! # Destruction, Prize recovery and Promotion

`engine/destruction/mod.rs`. A destruction check queues a whole chain of steps for each player whose
Summon at the position is over-damaged; the step that discards re-derives that player from the
board when it is executed.
-/

namespace Summoners.Destruction
set_option autoImplicit false

/-- The printed Life on a Summon's topmost card. -/
def lifeOf (cards : CardSet) (summon : SummonInstance) : Except Breakage UInt32 :=
  match cards.get summon.chain.top.defId with
  | none => .error ⟨"destruction", summon.chain.top.defId, .life⟩
  | some entity => entity.demand .life "destruction"

def isDestroyed (state : GameState) (player : PlayerId) (position : Position) :
    Except Breakage Bool :=
  match (state.player player).summonAt position with
  | none => .ok false
  | some summon =>
      match lifeOf state.cards summon with
      | .error breakage => .error breakage
      | .ok life => .ok (decide (life ≤ summon.damage))

/-- The first of `players` whose Summon at the position is destroyed. -/
def firstDestroyed (state : GameState) (position : Position) :
    List PlayerId → Except Breakage (Option PlayerId)
  | [] => .ok none
  | player :: players =>
      match isDestroyed state player position with
      | .error breakage => .error breakage
      | .ok true => .ok (some player)
      | .ok false => firstDestroyed state position players

def destroyedController (state : GameState) (position : Position) :
    Except Breakage (Option PlayerId) :=
  firstDestroyed state position (orderedPlayers state)

/-! ## Work-item executors -/

/-- The fixed steps of one player's destruction at a position. -/
def destructionSteps (player : PlayerId) : Position → List WorkItem
  | .main =>
      [.discardDestroyedChain .main, .recordMainLoss player, .recoverPrize player,
        .promoteBenchSummon player, .resolveMovementConsequences player, .lossCheck player]
  | .bench slot => [.discardDestroyedChain (.bench slot), .lossCheck player]

def enqueueDestruction (state : GameState) (player : PlayerId) (position : Position) : GameState :=
  state.pushBack (destructionSteps player position)

/-- The loop of `check`: a card without a printed Life breaks the game where it is met. -/
def checkPlayers (state : GameState) (position : Position) : List PlayerId → GameState
  | [] => state
  | player :: players =>
      match isDestroyed state player position with
      | .ok true => checkPlayers (enqueueDestruction state player position) position players
      | .ok false => checkPlayers state position players
      | .error breakage => state.breakGame breakage

def check (state : GameState) (position : Position) : GameState × List GameEvent :=
  (checkPlayers state position (orderedPlayers state), [])

/-- The board and the discard pile once the Summon at the position has left play. -/
def discardSummon (state : GameState) (controller : PlayerId) (position : Position)
    (summon : SummonInstance) : GameState :=
  let taken := state.setPlayer controller ((state.player controller).setAt position none)
  let ps := taken.player summon.owner
  taken.setPlayer summon.owner { ps with discard := ps.discard ++ summon.chain.layers }

def discardDestroyedChain (state : GameState) (position : Position) :
    GameState × List GameEvent :=
  match destroyedController state position with
  | .error breakage => (state.breakGame breakage, [])
  | .ok none => (state, [])
  | .ok (some controller) =>
      match (state.player controller).summonAt position with
      | none => (state, [])
      | some summon =>
          let next := discardSummon state controller position summon
          (Triggers.discoverFront next (orderedPlayers next) .anySummonDestroyed,
            [.summonDestroyed position summon.owner])

/-- The addition is the source's unchecked `+= 1`. -/
def recordMainLoss (state : GameState) (player : PlayerId) : GameState × List GameEvent :=
  let ps := state.player player
  (state.setPlayer player { ps with mainLosses := ps.mainLosses + 1 }, [])

def recoverPrize (state : GameState) (player : PlayerId) : GameState × List GameEvent :=
  if (state.player player).prizes.isEmpty then (state, [])
  else ({ state with pending := some (.prizePick player.opponent) }, [])

def answerPrize (state : GameState) (player : PlayerId) (prizeIndex : ℕ) :
    Except ActionError ActionOutcome :=
  if state.pending = some (.prizePick player) then
    let recovering := player.opponent
    let ps := state.player recovering
    match ps.prizes[prizeIndex]? with
    | none => .error .invalidTarget
    | some card =>
        let next := state.setPlayer recovering
          { ps with prizes := ps.prizes.eraseIdx prizeIndex, hand := ps.hand ++ [card] }
        .ok ⟨{ next with pending := none }, [.prizeRecovered recovering card.instanceId]⟩
  else .error .pendingInputMismatch

/-- Move the Bench Summon at a slot to Main, whatever Main holds. -/
def promoteFromSlot (state : GameState) (player : PlayerId) (slot : BenchSlot) :
    GameState × List GameEvent :=
  let ps := state.player player
  match ps.bench.get slot with
  | none => (state, [])
  | some summon =>
      (state.setPlayer player { ps with bench := ps.bench.set slot none, main := some summon },
        [.summonPromoted player slot])

def promoteBenchSummon (state : GameState) (player : PlayerId) : GameState × List GameEvent :=
  match occupiedBenchSlots (state.player player) with
  | [] => (state, [])
  | [slot] => promoteFromSlot state player slot
  | _ :: _ :: _ => ({ state with pending := some (.promotion player) }, [])

def answerPromotion (state : GameState) (player : PlayerId) (slot : BenchSlot) :
    Except ActionError ActionOutcome :=
  if state.pending = some (.promotion player) then
    if ((state.player player).bench.get slot).isNone then .error .emptyPosition
    else
      let r := promoteFromSlot state player slot
      .ok ⟨{ r.1 with pending := none }, r.2⟩
  else .error .pendingInputMismatch

def resolveMovementConsequences (state : GameState) (player : PlayerId) :
    GameState × List GameEvent :=
  if (state.player player).main.isSome then
    (state.pushFront [.movementTrigger .leavingBench player .main,
      .movementTrigger .enteringMain player .main], [])
  else (state, [])

end Summoners.Destruction
