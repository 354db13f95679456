import Summoners.Engine.Reads
import Summoners.Engine.Effects

/-! # Discovering and firing Triggered Abilities

`engine/triggers/mod.rs`. Discovery only queues `FireTrigger` items; an item re-reads its ability
when it is executed and then either applies its effects or opens a Stack segment with a window.
-/

namespace Summoners.Triggers
set_option autoImplicit false
open Destruction

def movementEvent : MovementStep → TriggerEvent
  | .leavingMain => .leavesMain
  | .enteringBench => .entersBench
  | .leavingBench => .leavesBench
  | .enteringMain => .entersMain

/-- The printed card on top of a player's Summon at a position. -/
def cardAt (state : GameState) (player : PlayerId) (position : Position) : Option Entity :=
  match (state.player player).summonAt position with
  | none => none
  | some summon => state.cards.get summon.chain.top.defId

def matchingAbilities (state : GameState) (player : PlayerId) (position : Position)
    (event : TriggerEvent) : List EntityId :=
  match cardAt state player position with
  | none => []
  | some card =>
      ((card.all .trigger).filter (fun ability => ability.get .triggerEvent = some event)).map
        Entity.id

/-- The respondability and the effects of one named Trigger ability, read fresh. -/
def abilityAt (state : GameState) (player : PlayerId) (position : Position) (ability : EntityId) :
    Option (Bool × List EffectLeaf) :=
  match cardAt state player position with
  | none => none
  | some card =>
      match (card.all .trigger).find? (fun entity => entity.id = ability) with
      | none => none
      | some entity => some ((entity.get .respondable).isSome, entity.all .effectLeaf)

def controlledPositions (ps : PlayerState) : List Position :=
  (if ps.main.isSome then [Position.main] else []) ++ (occupiedBenchSlots ps).map .bench

/-- The work items that fire `event` now, across `players` in the order given, Main before Bench,
in authored order on one card. -/
def candidates (state : GameState) (players : List PlayerId) (event : TriggerEvent) :
    List WorkItem :=
  players.flatMap (fun player =>
    (controlledPositions (state.player player)).flatMap (fun position =>
      (matchingAbilities state player position event).map (fun ability =>
        .fireTrigger player position event ability)))

def discoverFront (state : GameState) (players : List PlayerId) (event : TriggerEvent) :
    GameState :=
  state.pushFront (candidates state players event)

def discoverBack (state : GameState) (players : List PlayerId) (event : TriggerEvent) :
    GameState :=
  state.pushBack (candidates state players event)

def implicitTargets (position : Position) (effects : List EffectLeaf) : List Position :=
  if effects.any (fun | .dealDamage _ => true | _ => false) then [.main] else [position]

structure FiringTrigger where
  player : PlayerId
  position : Position
  event : TriggerEvent
  ability : EntityId

def fire (state : GameState) (firing : FiringTrigger) (trigger : Bool × List EffectLeaf) :
    GameState × List GameEvent :=
  let fired : GameEvent :=
    .triggerFired firing.player firing.position firing.event firing.ability
  let targets := implicitTargets firing.position trigger.2
  if trigger.1 then
    ({ state with
        stackSegmentBases := state.stackSegmentBases ++ [state.stack.length]
        stack := state.stack ++
          [.trigger firing.player firing.position firing.ability firing.event targets trigger.2]
        turn := { state.turn with window := some (Stack.windowAfterPlay firing.player) } }, [fired])
  else
    let r := Effects.applyLeaves state (.trigger firing.player firing.position firing.ability)
      targets trigger.2
    (r.1, fired :: r.2)

/-- The one place that records a Main arrival. -/
def markMainEntry (state : GameState) (step : MovementStep) (player : PlayerId)
    (position : Position) : GameState :=
  match step, position, (state.player player).main with
  | .enteringMain, .main, some summon =>
      state.setPlayer player { state.player player with
        main := some { summon with turn := { summon.turn with mainEntry := some .mk } } }
  | _, _, _ => state

def movementTrigger (state : GameState) (step : MovementStep) (player : PlayerId)
    (position : Position) : GameState × List GameEvent :=
  let state := markMainEntry state step player position
  let event := movementEvent step
  (state.pushFront ((matchingAbilities state player position event).map (fun ability =>
    .fireTrigger player position event ability)), [])

def fireQueued (state : GameState) (player : PlayerId) (position : Position)
    (event : TriggerEvent) (ability : EntityId) : GameState × List GameEvent :=
  match abilityAt state player position ability with
  | some trigger => fire state ⟨player, position, event, ability⟩ trigger
  | none => (state, [])

end Summoners.Triggers
