import Summoners.Engine.Destruction
import Summoners.Machine.RunToCompletion

/-! # The resolution loop

`engine/resolution/mod.rs`. `drainStep` is one iteration of the source's `loop`, with `none` where
it breaks; `drain` repeats it, bounded by an explicit number of iterations.
-/

namespace Summoners.Resolution
set_option autoImplicit false
open Effects

def stackHasUnresolvedItems (state : GameState) : Bool :=
  decide (Stack.segmentBase state < state.stack.length)

def executeDraw (state : GameState) : GameState × List GameEvent :=
  match Upkeep.drawCard state with
  | (next, events, .drew) => (next, events)
  | (next, events, .deckEmpty) =>
      let lost := Loss.drawFailure next next.turn.activePlayer
      (lost.1, events ++ lost.2)

def execute (state : GameState) : WorkItem → GameState × List GameEvent
  | .readyAll => Upkeep.readyAll state
  | .drawCard => executeDraw state
  | .produceMana player source => Upkeep.produceMana state player source
  | .beginMainPhase => Upkeep.beginMainPhase state
  | .destructionCheck position => Destruction.check state position
  | .discardDestroyedChain position => Destruction.discardDestroyedChain state position
  | .recordMainLoss player => Destruction.recordMainLoss state player
  | .recoverPrize player => Destruction.recoverPrize state player
  | .promoteBenchSummon player => Destruction.promoteBenchSummon state player
  | .resolveMovementConsequences player => Destruction.resolveMovementConsequences state player
  | .movementTrigger step player position => Triggers.movementTrigger state step player position
  | .fireTrigger player position event ability =>
      Triggers.fireQueued state player position event ability
  | .lossCheck player => Loss.check state player

/-- The attacker's printed Attack, read when the attack resolves. -/
def attackerEffects (state : GameState) (attacker : PlayerId) :
    Option (EntityId × List EffectLeaf) :=
  match (state.player attacker).main with
  | none => none
  | some summon =>
      match state.cards.get summon.chain.top.defId with
      | none => none
      | some entity =>
          match entity.get .attack with
          | none => none
          | some attack => some (attack.id, attack.all .effectLeaf)

def resolveAttack (state : GameState) (attacker : PlayerId) (target : Position) :
    GameState × List GameEvent :=
  match attackerEffects state attacker with
  | none => (state, [])
  | some (ability, effects) =>
      applyLeaves state (.attack attacker .main ability) [target] effects

def spellEffects (cards : CardSet) (defId : EntityId) : List EffectLeaf :=
  match cards.get defId with
  | none => []
  | some entity => entity.all .effectLeaf

def persists (cards : CardSet) (defId : EntityId) : Bool :=
  match cards.get defId with
  | none => false
  | some entity => (entity.get .persistent).isSome

/-- Where a resolved card goes: it stays in play, or it is discarded by its caster. -/
def placeSpell (state : GameState) (caster : PlayerId) (card : CardRef) : GameState :=
  let ps := state.player caster
  if persists state.cards card.defId then
    state.setPlayer caster { ps with enchantments := ps.enchantments ++ [card] }
  else state.setPlayer caster { ps with discard := ps.discard ++ [card] }

def resolveSpell (state : GameState) (caster : PlayerId) (card : CardRef)
    (targets : List Position) : GameState × List GameEvent :=
  let r := applyLeaves state (.spell caster card.instanceId card.defId) targets
    (spellEffects state.cards card.defId)
  (placeSpell r.1 caster card, r.2)

def resolveItem (state : GameState) : StackItem → GameState × List GameEvent
  | .attack attacker target => resolveAttack state attacker target
  | .spell caster card targets => resolveSpell state caster card targets
  | .trigger controller source ability _ targets effects =>
      applyLeaves state (.trigger controller source ability) targets effects

/-- Drop the segment base the Stack has just been drained down to. -/
def closeSegment (state : GameState) : GameState :=
  if state.stackSegmentBases.getLast? = some state.stack.length then
    { state with stackSegmentBases := state.stackSegmentBases.dropLast }
  else state

def resolveTopStackItem (state : GameState) : GameState × List GameEvent :=
  match state.stack.getLast? with
  | none => (state, [])
  | some item =>
      let r := resolveItem { state with stack := state.stack.dropLast } item
      (closeSegment r.1, .stackItemResolved item :: r.2)

/-- One iteration of the loop: the top of the current Stack segment first, then the front of
`work`. -/
def drainStep (state : GameState) : Option (GameState × List GameEvent) :=
  if state.pending.isSome || !state.status.isPlaying then none
  else if state.turn.window.isSome then none
  else if stackHasUnresolvedItems state then some (resolveTopStackItem state)
  else
    match state.work with
    | item :: work => some (execute { state with work := work } item)
    | [] => none

end Summoners.Resolution
