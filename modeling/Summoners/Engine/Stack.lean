import Summoners.Engine.Payment
import Summoners.Engine.Turn

/-! # Priority, the normal attack and Spells

`engine/stack/mod.rs`.
-/

namespace Summoners.Stack
set_option autoImplicit false

def declareAttack (state : GameState) (player : PlayerId) (target : Position)
    (manaHint : Option ManaType) : Except ActionError ActionOutcome :=
  if state.pending.isSome then .error .pendingInputMismatch
  else if state.turn.normalAttackUsed then .error .normalAttackAlreadyUsed
  else if state.turn.phase ≠ .main ∨ state.turn.window.isSome then .error .wrongPhase
  else if target ≠ .main then .error .invalidTarget
  else
    let ps := state.player player
    match ps.main with
    | none => .error .emptyPosition
    | some summon =>
        match state.cards.get summon.chain.top.defId with
        | none => .error .unknownCard
        | some entity =>
            match entity.get .attack with
            | none => .error .unknownCard
            | some attack =>
                match Payment.deduct ps.mana ((attack.get .cost).getD .default) manaHint with
                | .error e => .error e.toAction
                | .ok payment =>
                    let next : GameState :=
                      { state with
                        turn := { state.turn with
                          normalAttackUsed := true
                          phase := .combat
                          window := some (windowAfterPlay player) }
                        stack := state.stack ++ [.attack player target] }
                    .ok ⟨next.setPlayer player { ps with mana := payment.bank },
                      payment.events player ++ [.attackDeclared player target]⟩

/-- The nearest Attack of the current Stack segment. -/
def nearestAttack (state : GameState) : Option (PlayerId × Position) :=
  (state.stack.drop (segmentBase state)).reverse.findSome? (fun
    | .attack attacker target => some (attacker, target)
    | _ => none)

/-- Whether that Attack's printed effects block Attack Spell responses now. -/
def attackResponsesBlocked (state : GameState) : Bool :=
  match nearestAttack state with
  | none => false
  | some (attacker, target) =>
      match (state.player attacker).main with
      | none => false
      | some summon =>
          match state.cards.get summon.chain.top.defId with
          | none => false
          | some entity =>
              match entity.get .attack with
              | none => false
              | some attack =>
                  (attack.all .effectLeaf).any (fun
                    | .blockResponses condition .attackSpells =>
                        Damage.conditionHolds state attacker [target] condition
                    | _ => false)

/-- The timing and the cost a hand card is cast with; a Summon and a Spell without a printed Timing
cannot be cast. -/
def castingOf (entity : Entity) : Option (SpellTiming × Cost) :=
  match family entity with
  | .spell =>
      match entity.get .spellTiming with
      | some timing => some (timing, (entity.get .cost).getD .default)
      | none => none
  | .enchantment => some (.support, (entity.get .cost).getD .default)
  | .summon => none

def legalTiming (state : GameState) (player : PlayerId) : SpellTiming → Bool
  | .support => Turn.restingInOwnMain state player || Turn.holdsPriority state player
  | .attack => Turn.holdsPriority state player

def castSpell (state : GameState) (player : PlayerId) (card : CardInstanceId)
    (targets : List Position) (manaHint : Option ManaType) : Except ActionError ActionOutcome :=
  if state.pending.isSome then .error .pendingInputMismatch
  else
    let ps := state.player player
    match removeFirst (fun c => c.instanceId = card) ps.hand with
    | none => .error .unknownCard
    | some (cardRef, hand) =>
        match state.cards.get cardRef.defId with
        | none => .error .unknownCard
        | some entity =>
            match castingOf entity with
            | none => .error .unknownCard
            | some (timing, cost) =>
                if !legalTiming state player timing then .error .wrongPhase
                else if timing = .attack ∧ Turn.holdsPriority state player ∧
                    attackResponsesBlocked state then .error .wrongPhase
                else
                  match Payment.deduct ps.mana cost manaHint with
                  | .error e => .error e.toAction
                  | .ok payment =>
                      let next : GameState :=
                        { state with
                          turn := { state.turn with
                            window := some (windowAfterPlay player)
                            spellPlayedThisTurn := state.turn.spellPlayedThisTurn.set player true }
                          stack := state.stack ++ [.spell player cardRef targets] }
                      .ok ⟨next.setPlayer player { ps with mana := payment.bank, hand := hand },
                        payment.events player ++ [.spellCast player card targets]⟩

def pass (state : GameState) (player : PlayerId) : Except ActionError ActionOutcome :=
  if state.pending.isSome then .error .pendingInputMismatch
  else
    match state.turn.window with
    | none => .error .wrongPhase
    | some window =>
        if window.holder ≠ player then .error .notYourDecision
        else if window.priorPass then
          let next : GameState := { state with turn := { state.turn with window := none } }
          if next.stack.isEmpty then
            let outcome := Turn.handover next
            .ok ⟨outcome.state, .priorityPassed player :: outcome.events⟩
          else .ok ⟨next, [.priorityPassed player]⟩
        else
          .ok ⟨{ state with turn := { state.turn with window := some ⟨player.opponent, true⟩ } },
            [.priorityPassed player]⟩

end Summoners.Stack
