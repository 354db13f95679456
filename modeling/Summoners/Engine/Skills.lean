import Summoners.Engine.Board

/-! # Activating a Skill

`engine/skills/mod.rs`. The movement leaves of a Skill have their targets checked before anything
is paid; the cost is paid and the Summon exhausted before the leaves run.
-/

namespace Summoners.Skills
set_option autoImplicit false

def validMoveSummon (ps : PlayerState) : List Position → Bool
  | .bench fromSlot :: .bench toSlot :: _ =>
      (ps.bench.get fromSlot).isSome && (ps.bench.get toSlot).isNone
  | _ => false

def validSwapPositions (ps : PlayerState) : List Position → Bool
  | .bench slot :: _ => (ps.bench.get slot).isSome && ps.main.isSome
  | _ => false

def validSwapOpposingPositions (opponent : PlayerState) : List Position → Bool
  | .bench slot :: _ =>
      (opponent.bench.get slot).isSome &&
        opponent.main.any (fun main => !main.durationMarkers.contains .cannotBeMovedByOpponent)
  | _ => false

/-- Whether one leaf accepts the declared targets; a refusal is `InvalidTarget`. -/
def validTargets (state : GameState) (controller : PlayerId) (targets : List Position) :
    EffectLeaf → Bool
  | .moveSummon => validMoveSummon (state.player controller) targets
  | .swapPositions => validSwapPositions (state.player controller) targets
  | .swapOpposingPositions => validSwapOpposingPositions (state.player controller.opponent) targets
  | _ => true

def exhaust (summon : SummonInstance) : SummonInstance :=
  { summon with readiness := .exhausted }

def activateSkill (state : GameState) (player : PlayerId) (position : Position)
    (ability : EntityId) (targets : List Position) (manaHint : Option ManaType) :
    Except ActionError ActionOutcome :=
  match Board.requireFreeMainPhase state with
  | some e => .error e
  | none =>
      let ps := state.player player
      match ps.summonAt position with
      | none => .error .emptyPosition
      | some summon =>
          match summon.readiness with
          | .exhausted => .error .summonExhausted
          | .ready =>
              match state.cards.get summon.chain.top.defId with
              | none => .error .unknownCard
              | some topEntity =>
                  match (topEntity.all .skill).find? (fun e => e.id = ability) with
                  | none => .error .invalidTarget
                  | some skill =>
                      let effects := skill.all .effectLeaf
                      if !effects.all (validTargets state player targets) then
                        .error .invalidTarget
                      else
                        match Payment.deduct ps.mana ((skill.get .cost).getD .default) manaHint with
                        | .error e => .error e.toAction
                        | .ok payment =>
                            let next := state.setPlayer player
                              ({ ps with mana := payment.bank }.setAt position
                                (some (exhaust summon)))
                            let r := Effects.applyLeaves next (.skill player position ability)
                              targets effects
                            .ok ⟨r.1, payment.events player ++
                              .skillActivated player position ability :: r.2⟩

end Summoners.Skills
