import Summoners.Engine.Triggers

/-! # The turn handoff, the Coin and the Mana choice

`engine/turn.rs`. `EndTurn` opens the last response window; `handover` runs once both players have
passed over an empty Stack.
-/

namespace Summoners.Turn
set_option autoImplicit false

def endTurn (state : GameState) (player : PlayerId) : Except ActionError ActionOutcome :=
  if state.pending.isSome ∨ state.turn.window.isSome ∨
      ¬(state.turn.phase = .main ∨ state.turn.phase = .combat) ∨
      player ≠ state.turn.activePlayer then
    .error .wrongPhase
  else
    .ok ⟨{ state with turn := { state.turn with window := some (Stack.windowAfterPlay player) } },
      []⟩

def expireMarker (summon : SummonInstance) : SummonInstance :=
  { summon with durationMarkers :=
      summon.durationMarkers.filter (fun marker => marker != .cannotBeMovedByOpponent) }

def expireCannotBeMovedByOpponent (ps : PlayerState) : PlayerState :=
  { ps with main := ps.main.map expireMarker, bench := ps.bench.mapSummons expireMarker }

/-- The turn record a new turn starts with. -/
def freshTurn (player : PlayerId) : TurnState :=
  { activePlayer := player
    phase := .upkeep
    window := none
    normalAttackUsed := false
    normalRetreatUsed := false
    spellPlayedThisTurn := ⟨false, false⟩ }

/-- Both boards with their per-turn records cleared, the newly active player's markers expired. -/
def handoverBoards (players : PerPlayer PlayerState) (ending : PlayerId) :
    PerPlayer PlayerState :=
  let players := players.set ending (Upkeep.resetPerTurnSummonRecords (players.get ending))
  let beginning := ending.opponent
  players.set beginning
    (expireCannotBeMovedByOpponent (Upkeep.resetPerTurnSummonRecords (players.get beginning)))

def handover (state : GameState) : ActionOutcome :=
  let player := state.turn.activePlayer
  let opponent := player.opponent
  let next : GameState :=
    { state with turn := freshTurn opponent, players := handoverBoards state.players player }
  let next := next.pushBack [.readyAll]
  let next := Triggers.discoverBack next [opponent] .yourUpkeep
  ⟨next.pushBack [.drawCard, .produceMana opponent .player, .beginMainPhase], [.turnBegan opponent]⟩

/-- Where the Coin may be converted: in the owner's free Main Phase, or holding Priority. -/
def restingInOwnMain (state : GameState) (player : PlayerId) : Bool :=
  state.turn.window.isNone && state.turn.phase = .main && player = state.turn.activePlayer

def holdsPriority (state : GameState) (player : PlayerId) : Bool :=
  state.turn.window.any (fun window => window.holder = player)

def convertCoin (state : GameState) (player : PlayerId) (manaType : ManaType) :
    Except ActionError ActionOutcome :=
  if state.pending.isSome then .error .wrongPhase
  else if !restingInOwnMain state player && !holdsPriority state player then .error .wrongPhase
  else if player ≠ .two ∨ state.coin.isNone then .error .invalidTarget
  else if manaType ∉ Upkeep.anchorTypes state.cards (state.player player) then
    .error .invalidTarget
  else
    let next := { state with coin := none }
    .ok ⟨next.setPlayer player (Upkeep.bank (state.player player) manaType),
      [.coinConverted player manaType]⟩

def chooseManaType (state : GameState) (player : PlayerId) (manaType : ManaType) :
    Except ActionError ActionOutcome :=
  match state.pending with
  | some (.manaProduction pendingPlayer source) =>
      if player ≠ pendingPlayer then .error .pendingInputMismatch
      else if manaType ∉ Upkeep.availableTypes state.cards (state.player pendingPlayer) source then
        .error .invalidTarget
      else
        let next := { state with pending := none }
        .ok ⟨next.setPlayer pendingPlayer (Upkeep.bank (state.player pendingPlayer) manaType),
          [.manaProduced pendingPlayer source manaType]⟩
  | _ => .error .pendingInputMismatch

end Summoners.Turn
