import Mathlib.Data.List.Basic
import Summoners.Engine.Effects
import Summoners.Engine.Payment

/-! # Playing, upgrading and retreating Summons

`engine/board/mod.rs`.
-/

namespace Summoners.Board
set_option autoImplicit false

def producedTypes (entity : Entity) : List ManaType :=
  (entity.get .manaTypes).getD []

/-- The delta the first Passive printed on a Summon's topmost card adds to an opposing Retreat. -/
def retreatDelta (cards : CardSet) (summon : SummonInstance) : Int32 :=
  match cards.get summon.chain.top.defId with
  | none => 0
  | some top =>
      match top.get .modifier with
      | some (.opposingRetreatCostDelta delta) => delta
      | _ => 0

def opposingRetreatCostDelta (state : GameState) (player : PlayerId) : Int32 :=
  ((Upkeep.controlledSummons (state.player player.opponent)).map (retreatDelta state.cards)).foldl
    (· + ·) 0

/-- The error of an action that needs a free Main Phase, or none where there is one. -/
def requireFreeMainPhase (state : GameState) : Option ActionError :=
  if state.pending.isSome then some .pendingInputMismatch
  else if state.turn.phase ≠ .main ∨ state.turn.window.isSome then some .wrongPhase
  else none

/-- A Base Summon as it enters the Bench. -/
def enteringSummon (player : PlayerId) (card : CardRef) : SummonInstance :=
  { chain := ⟨card, []⟩
    damage := 0
    readiness := .exhausted
    owner := player
    controller := player
    durationMarkers := []
    turn := ⟨.playedThisTurn, none⟩ }

def playSummon (state : GameState) (player : PlayerId) (card : CardInstanceId)
    (slot : BenchSlot) : Except ActionError ActionOutcome :=
  match requireFreeMainPhase state with
  | some e => .error e
  | none =>
      let ps := state.player player
      if (ps.bench.get slot).isSome then .error .invalidTarget
      else
        match removeFirst (fun c => c.instanceId = card) ps.hand with
        | none => .error .unknownCard
        | some (cardRef, hand) =>
            match state.cards.get cardRef.defId with
            | none => .error .unknownCard
            | some entity =>
                if family entity ≠ .summon ∨ entity.get .form ≠ some .base then
                  .error .unknownCard
                else
                  .ok ⟨state.setPlayer player
                      { ps with
                        hand := hand
                        bench := ps.bench.set slot (some (enteringSummon player cardRef)) },
                    [.summonPlayed player card slot]⟩

/-- Whether the new top card may be stacked on the old one. -/
def upgradeAllowed (entity topEntity : Entity) (newForm topForm : Form) : Bool :=
  decide (topForm.rank < newForm.rank) &&
    (producedTypes topEntity).all (fun t => (producedTypes entity).contains t)

def upgraded (summon : SummonInstance) (card : CardRef) : SummonInstance :=
  { summon with
    chain := ⟨summon.chain.base, summon.chain.rest ++ [card]⟩
    readiness := .exhausted
    turn := { summon.turn with upgrade := .upgradedThisTurn } }

def upgradeSummon (state : GameState) (player : PlayerId) (card : CardInstanceId)
    (position : Position) : Except ActionError ActionOutcome :=
  match requireFreeMainPhase state with
  | some e => .error e
  | none =>
      let ps := state.player player
      match ps.summonAt position with
      | none => .error .emptyPosition
      | some summon =>
          match summon.turn.upgrade with
          | .playedThisTurn => .error .playedThisTurn
          | .upgradedThisTurn => .error .alreadyUpgradedThisTurn
          | .available =>
              match removeFirst (fun c => c.instanceId = card) ps.hand with
              | none => .error .unknownCard
              | some (cardRef, hand) =>
                  match state.cards.get cardRef.defId with
                  | none => .error .unknownCard
                  | some entity =>
                      if family entity ≠ .summon then .error .unknownCard
                      else
                        match entity.get .form, state.cards.get summon.chain.top.defId with
                        | some newForm, some topEntity =>
                            match topEntity.get .form with
                            | none => .error .unknownCard
                            | some topForm =>
                                if upgradeAllowed entity topEntity newForm topForm then
                                  .ok ⟨state.setPlayer player
                                      ({ ps with hand := hand }.setAt position
                                        (some (upgraded summon cardRef))),
                                    [.summonUpgraded player card position]⟩
                                else .error .illegalUpgradeTarget
                        | _, _ => .error .unknownCard

def retreat (state : GameState) (player : PlayerId) (slot : BenchSlot)
    (manaHint : Option ManaType) : Except ActionError ActionOutcome :=
  match requireFreeMainPhase state with
  | some e => .error e
  | none =>
      if state.turn.normalRetreatUsed then .error .normalRetreatAlreadyUsed
      else
        let ps := state.player player
        match ps.main, ps.bench.get slot with
        | some vacatingMain, some incomingMain =>
            match state.cards.get vacatingMain.chain.top.defId with
            | none => .error .unknownCard
            | some topEntity =>
                match topEntity.get .retreatCost with
                | none => .error .unknownCard
                | some printedCost =>
                    let cost : Cost :=
                      ⟨0, 0, 0,
                        saturatingAddSigned printedCost (opposingRetreatCostDelta state player)⟩
                    match Payment.deduct ps.mana cost manaHint with
                    | .error e => .error e.toAction
                    | .ok payment =>
                        let next : GameState :=
                          { state with turn := { state.turn with normalRetreatUsed := true } }
                        let next := next.setPlayer player
                          (Effects.exchange { ps with mana := payment.bank } slot vacatingMain
                            incomingMain)
                        .ok ⟨next.pushBack (Effects.exchangeSteps player slot),
                          payment.events player ++ [.summonsSwapped player slot]⟩
        | _, _ => .error .emptyPosition

end Summoners.Board
