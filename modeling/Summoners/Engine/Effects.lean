import Summoners.Engine.Damage
import Summoners.Engine.Loss
import Summoners.Engine.Upkeep

/-! # The effect-leaf interpreter

`engine/effects/mod.rs`, and the fold over a list of leaves (`resolution::apply_leaves`), which
triggers, Skills and Stack items share. A leaf that cannot act returns the state it was given.
-/

namespace Summoners.Effects
set_option autoImplicit false

def effectPosition (source : EffectSource) (selected : List Position) :
    EffectTarget → Option Position
  | .selected => selected.head?
  | .source => source.position

/-- One write to the Summon a player has at a position; an empty position is a miss. -/
def withSummonAt (state : GameState) (controller : PlayerId) (position : Position)
    (hit : SummonInstance → SummonInstance) (events : SummonInstance → List GameEvent) :
    GameState × List GameEvent :=
  let ps := state.player controller
  match ps.summonAt position with
  | none => (state, [])
  | some summon =>
      (state.setPlayer controller (ps.setAt position (some (hit summon))), events summon)

def protect (summon : SummonInstance) : SummonInstance :=
  if summon.durationMarkers.contains .cannotBeMovedByOpponent then summon
  else { summon with durationMarkers := summon.durationMarkers ++ [.cannotBeMovedByOpponent] }

def cannotBeMovedByOpponent (state : GameState) (controller : PlayerId)
    (position : Option Position) : GameState × List GameEvent :=
  match position with
  | none => (state, [])
  | some position => withSummonAt state controller position protect (fun _ => [])

def isSpell (cards : CardSet) (card : CardRef) : Bool :=
  match cards.get card.defId with
  | none => false
  | some entity => family entity = .spell

def returnSpellFromDiscard (state : GameState) (controller : PlayerId) :
    GameState × List GameEvent :=
  let ps := state.player controller
  match removeFirst (isSpell state.cards) ps.discard with
  | none => (state, [])
  | some (card, discard) =>
      (state.setPlayer controller { ps with discard := discard, hand := ps.hand ++ [card] }, [])

def returnSpellToDeckTop (state : GameState) (controller : PlayerId) :
    GameState × List GameEvent :=
  let ps := state.player controller
  match removeFirst (isSpell state.cards) ps.hand with
  | none => (state, [])
  | some (card, hand) =>
      (state.setPlayer controller { ps with hand := hand, deck := card :: ps.deck }, [])

def lookAtPrizes (state : GameState) (controller : PlayerId) : GameState × List GameEvent :=
  (state, [.prizesViewed controller ((state.player controller).prizes.map (·.instanceId))])

/-- The four movement steps of a Main and Bench exchange. Both Summons have moved already, so each
step names the position its Summon occupies now. -/
def exchangeSteps (player : PlayerId) (slot : BenchSlot) : List WorkItem :=
  [.movementTrigger .leavingMain player (.bench slot),
    .movementTrigger .enteringBench player (.bench slot),
    .movementTrigger .leavingBench player .main,
    .movementTrigger .enteringMain player .main]

/-- Main and a Bench slot with their occupants exchanged. -/
def exchange (ps : PlayerState) (slot : BenchSlot) (vacatingMain incomingMain : SummonInstance) :
    PlayerState :=
  { ps with main := some incomingMain, bench := ps.bench.set slot (some vacatingMain) }

/-- The exchange both swap leaves perform once nothing forbids it. -/
def swapBoard (state : GameState) (player : PlayerId) (slot : BenchSlot)
    (vacatingMain incomingMain : SummonInstance) : GameState × List GameEvent :=
  ((state.setPlayer player (exchange (state.player player) slot vacatingMain incomingMain)).pushBack
    (exchangeSteps player slot), [.summonsSwapped player slot])

def swapOpposingPositions (state : GameState) (controller : PlayerId) (targets : List Position) :
    GameState × List GameEvent :=
  match targets with
  | .bench slot :: _ =>
      let ps := state.player controller.opponent
      match ps.main with
      | none => (state, [])
      | some vacatingMain =>
          if vacatingMain.durationMarkers.contains .cannotBeMovedByOpponent then (state, [])
          else
            match ps.bench.get slot with
            | none => (state, [])
            | some incomingMain =>
                swapBoard state controller.opponent slot vacatingMain incomingMain
  | _ => (state, [])

def swapPositions (state : GameState) (controller : PlayerId) (targets : List Position) :
    GameState × List GameEvent :=
  match targets with
  | .bench slot :: _ =>
      let ps := state.player controller
      match ps.main with
      | none => (state, [])
      | some vacatingMain =>
          match ps.bench.get slot with
          | none => (state, [])
          | some incomingMain => swapBoard state controller slot vacatingMain incomingMain
  | _ => (state, [])

def moveSummon (state : GameState) (controller : PlayerId) (targets : List Position) :
    GameState × List GameEvent :=
  match targets with
  | .bench fromSlot :: .bench toSlot :: _ =>
      let ps := state.player controller
      if (ps.bench.get toSlot).isSome then (state, [])
      else
        match ps.bench.get fromSlot with
        | none => (state, [])
        | some summon =>
            ((state.setPlayer controller
                { ps with bench := (ps.bench.set fromSlot none).set toSlot (some summon) }).pushBack
              [.movementTrigger .leavingBench controller (.bench toSlot),
                .movementTrigger .enteringBench controller (.bench toSlot)], [])
  | _ => (state, [])

def dealDamage (state : GameState) (source : EffectSource) (targets : List Position)
    (effect : DamageEffect) : GameState × List GameEvent :=
  match targets with
  | [] => (state, [])
  | position :: _ =>
      let context : DamageContext :=
        ⟨.ofEffectSource source, ⟨source.controller.opponent, position⟩⟩
      Damage.commit state (Damage.evaluate state ⟨context, effect⟩)

/-- `amount.min(summon.damage)`. -/
def healedAmount (amount : UInt32) (summon : SummonInstance) : UInt32 :=
  if amount ≤ summon.damage then amount else summon.damage

def heal (state : GameState) (controller : PlayerId) (position : Option Position)
    (amount : UInt32) : GameState × List GameEvent :=
  match position with
  | none => (state, [])
  | some position =>
      withSummonAt state controller position
        (fun summon => { summon with damage := summon.damage - healedAmount amount summon })
        (fun summon => [.healed position (healedAmount amount summon)])

/-- The loop of `draw_cards`: it stops at an empty Deck. -/
def drawLoop (state : GameState) (controller : PlayerId) : ℕ → GameState × List GameEvent
  | 0 => (state, [])
  | n + 1 =>
      let ps := state.player controller
      match ps.deck with
      | [] => (state, [])
      | card :: deck =>
          let r := drawLoop
            (state.setPlayer controller { ps with deck := deck, hand := ps.hand ++ [card] })
            controller n
          (r.1, .cardDrawn controller card.instanceId :: r.2)

def drawCards (state : GameState) (controller : PlayerId) (amount : UInt32) :
    GameState × List GameEvent :=
  let available := (state.player controller).deck.length
  let drawn := drawLoop state controller amount.toNat
  if available < amount.toNat then
    let lost := Loss.drawFailure drawn.1 controller
    (lost.1, drawn.2 ++ lost.2)
  else drawn

def produceManaLeaf (state : GameState) (controller : PlayerId) (position : Option Position) :
    GameState × List GameEvent :=
  match position with
  | none => (state, [])
  | some position => Upkeep.produceMana state controller (.summon position)

def readySummon (state : GameState) (controller : PlayerId) (targets : List Position) :
    GameState × List GameEvent :=
  match targets with
  | [] => (state, [])
  | position :: _ =>
      withSummonAt state controller position Upkeep.readySummon
        (fun _ => [.summonsReadied controller [position]])

def applyLeaf (state : GameState) (source : EffectSource) (targets : List Position) :
    EffectLeaf → GameState × List GameEvent
  | .dealDamage effect => dealDamage state source targets effect
  | .heal amount target =>
      heal state source.controller (effectPosition source targets target) amount
  | .drawCards amount => drawCards state source.controller amount
  | .moveSummon => moveSummon state source.controller targets
  | .swapPositions => swapPositions state source.controller targets
  | .produceMana target =>
      produceManaLeaf state source.controller (effectPosition source targets target)
  | .readySummon => readySummon state source.controller targets
  | .cannotBeMovedByOpponent target =>
      cannotBeMovedByOpponent state source.controller (effectPosition source targets target)
  | .returnSpellFromDiscard => returnSpellFromDiscard state source.controller
  | .returnSpellToDeckTop => returnSpellToDeckTop state source.controller
  | .swapOpposingPositions => swapOpposingPositions state source.controller targets
  | .lookAtPrizes => lookAtPrizes state source.controller
  -- read by `cast_spell`, not run
  | .blockResponses _ _ => (state, [])

/-- `resolution::apply_leaves`: the leaves in order, until one of them ends the game. -/
def applyLeaves (state : GameState) (source : EffectSource) (targets : List Position) :
    List EffectLeaf → GameState × List GameEvent
  | [] => (state, [])
  | leaf :: leaves =>
      let r := applyLeaf state source targets leaf
      if r.1.status.isPlaying then
        let r' := applyLeaves r.1 source targets leaves
        (r'.1, r.2 ++ r'.2)
      else r

end Summoners.Effects
