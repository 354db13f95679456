import Summoners.Domain.Events

/-! # Losing the game

`engine/loss.rs`.
-/

namespace Summoners.Loss
set_option autoImplicit false

/-- A win for the loser's opponent, and the one `GameEnded` fact of it. -/
def lose (state : GameState) (loser : PlayerId) (reason : LossReason) :
    GameState × List GameEvent :=
  ({ state with status := .ended ⟨loser.opponent, reason⟩ }, [.gameEnded loser.opponent reason])

def drawFailure (state : GameState) (player : PlayerId) : GameState × List GameEvent :=
  lose state player .emptyDeckDraw

/-- `WorkItem::LossCheck`: the third Main loss is looked at before an empty board. -/
def check (state : GameState) (player : PlayerId) : GameState × List GameEvent :=
  let ps := state.player player
  if 3 ≤ ps.mainLosses then lose state player .thirdMainLoss
  else if ps.main.isNone && BenchSlot.all.all (fun slot => (ps.bench.get slot).isNone) then
    lose state player .noPromotionAvailable
  else (state, [])

end Summoners.Loss
