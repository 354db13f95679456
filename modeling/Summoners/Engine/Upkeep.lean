import Summoners.Domain.Events

/-! # Upkeep work

`engine/upkeep.rs`: the anchoring rule, Mana production, readying, the turn draw and the move to
the Main Phase.
-/

namespace Summoners.Upkeep
set_option autoImplicit false

/-! ## The anchoring rule -/

/-- Every Summon a player controls, Main first, then the Bench in slot order. -/
def controlledSummons (ps : PlayerState) : List SummonInstance :=
  ps.main.toList ++ ps.bench.summons

/-- The positions a player occupies, in the same order. -/
def controlledPositions (ps : PlayerState) : List Position :=
  (if ps.main.isSome then [Position.main] else []) ++
    (BenchSlot.all.filter (fun slot => (ps.bench.get slot).isSome)).map .bench

/-- The Mana Types printed on a Summon's topmost card. -/
def producedTypes (cards : CardSet) (summon : SummonInstance) : List ManaType :=
  match cards.get summon.chain.top.defId with
  | none => []
  | some entity => (entity.get .manaTypes).getD []

/-- The union of the controlled Summons' Types, in the order Matter, Mind, Spirit. -/
def anchorTypes (cards : CardSet) (ps : PlayerState) : List ManaType :=
  [ManaType.matter, .mind, .spirit].filter (fun t =>
    (controlledSummons ps).any (fun summon => (producedTypes cards summon).contains t))

def summonTypes (cards : CardSet) (ps : PlayerState) (position : Position) : List ManaType :=
  match ps.summonAt position with
  | none => []
  | some summon => producedTypes cards summon

def availableTypes (cards : CardSet) (ps : PlayerState) : ManaSource → List ManaType
  | .player => anchorTypes cards ps
  | .summon position => summonTypes cards ps position

/-- One unit into a pool. The addition is the source's unchecked `+= 1`. -/
def bank (ps : PlayerState) (t : ManaType) : PlayerState :=
  match t with
  | .matter => { ps with mana := { ps.mana with matter := ps.mana.matter + 1 } }
  | .mind => { ps with mana := { ps.mana with mind := ps.mana.mind + 1 } }
  | .spirit => { ps with mana := { ps.mana with spirit := ps.mana.spirit + 1 } }

/-! ## The per-turn records -/

def clearPerTurnFlags (summon : SummonInstance) : SummonInstance :=
  { summon with turn := .fresh }

def resetPerTurnSummonRecords (ps : PlayerState) : PlayerState :=
  { ps with
    main := ps.main.map clearPerTurnFlags
    bench := ps.bench.mapSummons clearPerTurnFlags }

/-! ## Work-item executors -/

def readySummon (summon : SummonInstance) : SummonInstance :=
  { summon with readiness := .ready }

def readyAll (state : GameState) : GameState × List GameEvent :=
  let player := state.turn.activePlayer
  let ps := state.player player
  (state.setPlayer player
      { ps with main := ps.main.map readySummon, bench := ps.bench.mapSummons readySummon },
    [.summonsReadied player (controlledPositions ps)])

inductive DrawOutcome
  | drew
  | deckEmpty
  deriving DecidableEq, Repr

def drawCard (state : GameState) : GameState × List GameEvent × DrawOutcome :=
  let player := state.turn.activePlayer
  let ps := state.player player
  match ps.deck with
  | [] => (state, [], .deckEmpty)
  | card :: deck =>
      (state.setPlayer player { ps with deck := deck, hand := ps.hand ++ [card] },
        [.cardDrawn player card.instanceId], .drew)

/-- One available Type is banked at once, several pause for a choice, none does nothing. -/
def produceMana (state : GameState) (player : PlayerId) (source : ManaSource) :
    GameState × List GameEvent :=
  match availableTypes state.cards (state.player player) source with
  | [] => (state, [])
  | [manaType] =>
      (state.setPlayer player (bank (state.player player) manaType),
        [.manaProduced player source manaType])
  | _ :: _ :: _ => ({ state with pending := some (.manaProduction player source) }, [])

def beginMainPhase (state : GameState) : GameState × List GameEvent :=
  ({ state with turn := { state.turn with phase := .main } }, [])

end Summoners.Upkeep
