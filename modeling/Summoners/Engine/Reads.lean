import Summoners.Domain.Events

/-! # Reads shared by the engine's mutually importing modules

`destruction::ordered_players`, `destruction::occupied_bench_slots` and `stack::window_after_play`,
which `engine/triggers` uses although `destruction` and `stack` build on it in turn.
-/

namespace Summoners
set_option autoImplicit false

namespace Destruction

/-- The active player's opponent, then the active player. -/
def orderedPlayers (state : GameState) : List PlayerId :=
  [state.turn.activePlayer.opponent, state.turn.activePlayer]

def occupiedBenchSlots (ps : PlayerState) : List BenchSlot :=
  BenchSlot.all.filter (fun slot => (ps.bench.get slot).isSome)

theorem mem_occupiedBenchSlots {ps : PlayerState} {slot : BenchSlot} :
    slot ∈ occupiedBenchSlots ps ↔ (ps.bench.get slot).isSome = true := by
  simp [occupiedBenchSlots, BenchSlot.mem_all]

end Destruction

namespace Stack

/-- The window that follows an attack, a played effect or an end of turn. -/
def windowAfterPlay (player : PlayerId) : StackWindow :=
  ⟨player.opponent, false⟩

/-- The base of the current Stack segment. -/
def segmentBase (state : GameState) : ℕ :=
  state.stackSegmentBases.getLast?.getD 0

end Stack

end Summoners
