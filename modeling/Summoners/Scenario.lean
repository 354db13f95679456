import Summoners.Engine.Apply

/-! # Scenarios

`scenario.rs`: the parser from a described match situation to a `GameState`.
-/

namespace Summoners
set_option autoImplicit false

structure ScenarioSummon where
  chain : List CardRef
  damage : UInt32
  readiness : Readiness
  deriving DecidableEq, Repr

structure ScenarioPlayer where
  deck : List CardRef
  hand : List CardRef
  prizes : List CardRef
  discard : List CardRef
  mana : ManaBank
  mainLosses : UInt8
  main : Option ScenarioSummon
  /-- `[Option<ScenarioSummon>; 3]`, indexed by slot. -/
  bench : BenchSlot → Option ScenarioSummon

structure Scenario where
  players : PerPlayer ScenarioPlayer
  activePlayer : PlayerId
  coin : Option Coin

namespace Scenario

/-- Every occupied position of one board, Main first. -/
def positionedSummons (sp : ScenarioPlayer) : List (Position × ScenarioSummon) :=
  (sp.main.toList.map (fun summon => (Position.main, summon))) ++
    BenchSlot.all.flatMap (fun slot =>
      (sp.bench slot).toList.map (fun summon => (Position.bench slot, summon)))

def playerCardRefs (sp : ScenarioPlayer) : List CardRef :=
  sp.deck ++ sp.hand ++ sp.prizes ++ sp.discard ++
    (positionedSummons sp).flatMap (fun r => r.2.chain)

def allCardRefs (scenario : Scenario) : List CardRef :=
  playerCardRefs scenario.players.one ++ playerCardRefs scenario.players.two

/-- The first instance seen twice. -/
def firstDuplicate (seen : List CardInstanceId) : List CardRef → Option CardInstanceId
  | [] => none
  | card :: rest =>
      if card.instanceId ∈ seen then some card.instanceId
      else firstDuplicate (card.instanceId :: seen) rest

def checkNoDuplicateInstances (scenario : Scenario) : Except InvalidScenario Unit :=
  match firstDuplicate [] (allCardRefs scenario) with
  | some id => .error (.duplicateCardInstance id)
  | none => .ok ()

def checkEveryDefKnown (cards : CardSet) (scenario : Scenario) : Except InvalidScenario Unit :=
  match (allCardRefs scenario).find? (fun card => (cards.get card.defId).isNone) with
  | some card => .error (.unknownCardDef card.defId)
  | none => .ok ()

def formOf (cards : CardSet) (card : CardRef) (player : PlayerId) (position : Position) :
    Except InvalidScenario Form :=
  match cards.get card.defId with
  | none => .error (.unknownCardDef card.defId)
  | some entity =>
      match entity.get .form with
      | none => .error (.illegalChainOrder player position)
      | some form => .ok form

/-- The loop of `build_chain`: every layer's Form is above the one before it. -/
def checkClimb (cards : CardSet) (player : PlayerId) (position : Position) (previous : Form) :
    List CardRef → Except InvalidScenario Unit
  | [] => .ok ()
  | card :: rest =>
      match formOf cards card player position with
      | .error e => .error e
      | .ok form =>
          if form.rank ≤ previous.rank then .error (.illegalChainOrder player position)
          else checkClimb cards player position form rest

def buildChain (cards : CardSet) (player : PlayerId) (position : Position) :
    List CardRef → Except InvalidScenario UpgradeChain
  | [] => .error (.emptyUpgradeChain player position)
  | base :: rest =>
      match formOf cards base player position with
      | .error e => .error e
      | .ok previous =>
          match checkClimb cards player position previous rest with
          | .error e => .error e
          | .ok () => .ok ⟨base, rest⟩

def buildSummonInstance (cards : CardSet) (player : PlayerId) (position : Position)
    (summon : ScenarioSummon) : Except InvalidScenario SummonInstance :=
  match buildChain cards player position summon.chain with
  | .error e => .error e
  | .ok chain =>
      .ok
        { chain := chain
          damage := summon.damage
          readiness := summon.readiness
          owner := player
          controller := player
          durationMarkers := []
          turn := .fresh }

/-- The Summon a scenario puts at one position, if it puts one there. -/
def buildAt (cards : CardSet) (player : PlayerId) (position : Position) :
    Option ScenarioSummon → Except InvalidScenario (Option SummonInstance)
  | none => .ok none
  | some summon => (buildSummonInstance cards player position summon).map some

def buildPlayerState (cards : CardSet) (player : PlayerId) (sp : ScenarioPlayer) :
    Except InvalidScenario PlayerState := do
  let main ← buildAt cards player .main sp.main
  let first ← buildAt cards player (.bench .first) (sp.bench .first)
  let second ← buildAt cards player (.bench .second) (sp.bench .second)
  let third ← buildAt cards player (.bench .third) (sp.bench .third)
  if main.isNone && (first.isNone && second.isNone && third.isNone) then
    .error (.noSummonInPlay player)
  else
    .ok
      { main := main
        bench := ⟨first, second, third⟩
        deck := sp.deck
        hand := sp.hand
        prizes := sp.prizes
        discard := sp.discard
        mana := sp.mana
        mainLosses := sp.mainLosses
        enchantments := [] }

/-- The promotion an empty Main leaves pending: the first such player in seat order. -/
def derivePending (players : PerPlayer PlayerState) : Option PendingInput :=
  if players.one.main.isNone then some (.promotion .one)
  else if players.two.main.isNone then some (.promotion .two)
  else none

end Scenario

open Scenario in
def fromScenario (cards : CardSet) (scenario : Scenario) : Except InvalidScenario GameState := do
  checkNoDuplicateInstances scenario
  checkEveryDefKnown cards scenario
  let one ← buildPlayerState cards .one scenario.players.one
  let two ← buildPlayerState cards .two scenario.players.two
  .ok
    { players := ⟨one, two⟩
      coin := scenario.coin
      turn :=
        { activePlayer := scenario.activePlayer
          phase := .main
          window := none
          normalAttackUsed := false
          normalRetreatUsed := false
          spellPlayedThisTurn := ⟨false, false⟩ }
      stack := []
      stackSegmentBases := []
      work := []
      pending := derivePending ⟨one, two⟩
      status := .playing
      cards := cards }

end Summoners
