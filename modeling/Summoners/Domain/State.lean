import Summoners.Domain.Cards

/-! # The game state

`domain/state.rs`. Fixed-width counters keep their width (`UInt32`, `UInt8`), so an unchecked `+= 1`
of the source is the wrapping one of an optimised build; where a checked build would stop with a
panic instead, no later state exists and nothing below speaks about it. A `Vec` or a `VecDeque` is
a list, the front (or the bottom of the Stack) first; the array of three Bench slots is `Bench`.
-/

namespace Summoners
set_option autoImplicit false

/-- A card outside the battlefield, or one layer of an upgrade chain. -/
structure CardRef where
  instanceId : CardInstanceId
  defId : EntityId
  deriving DecidableEq, Repr

/-- A non-empty upgrade chain, base first. -/
structure UpgradeChain where
  base : CardRef
  rest : List CardRef
  deriving DecidableEq, Repr

namespace UpgradeChain

def top (chain : UpgradeChain) : CardRef :=
  chain.rest.getLast?.getD chain.base

def layers (chain : UpgradeChain) : List CardRef :=
  chain.base :: chain.rest

end UpgradeChain

inductive DurationMarker
  | cannotBeMovedByOpponent
  deriving DecidableEq, Repr

inductive UpgradeActivity
  | available
  | playedThisTurn
  | upgradedThisTurn
  deriving DecidableEq, Repr

/-- Proof that a Summon entered Main during the current turn. -/
inductive EnteredMain
  | mk
  deriving DecidableEq, Repr

structure SummonTurnRecord where
  upgrade : UpgradeActivity
  mainEntry : Option EnteredMain
  deriving DecidableEq, Repr

def SummonTurnRecord.fresh : SummonTurnRecord := ⟨.available, none⟩

inductive Readiness
  | ready
  | exhausted
  deriving DecidableEq, Repr

structure SummonInstance where
  chain : UpgradeChain
  damage : UInt32
  readiness : Readiness
  owner : PlayerId
  controller : PlayerId
  durationMarkers : List DurationMarker
  turn : SummonTurnRecord
  deriving DecidableEq, Repr

structure ManaBank where
  matter : UInt32
  mind : UInt32
  spirit : UInt32
  deriving DecidableEq, Repr

inductive Coin
  | mk
  deriving DecidableEq, Repr

/-! ## The three Bench slots -/

structure Bench where
  first : Option SummonInstance
  second : Option SummonInstance
  third : Option SummonInstance
  deriving DecidableEq, Repr

namespace Bench

def empty : Bench := ⟨none, none, none⟩

def get (bench : Bench) : BenchSlot → Option SummonInstance
  | .first => bench.first
  | .second => bench.second
  | .third => bench.third

def set (bench : Bench) (slot : BenchSlot) (value : Option SummonInstance) : Bench :=
  match slot with
  | .first => { bench with first := value }
  | .second => { bench with second := value }
  | .third => { bench with third := value }

/-- `iter_mut().flatten()` with one write for each Summon found. -/
def mapSummons (bench : Bench) (f : SummonInstance → SummonInstance) : Bench :=
  ⟨bench.first.map f, bench.second.map f, bench.third.map f⟩

/-- `iter().flatten()`. -/
def summons (bench : Bench) : List SummonInstance :=
  bench.first.toList ++ bench.second.toList ++ bench.third.toList

@[simp] theorem get_set_self (bench : Bench) (s : BenchSlot) (v : Option SummonInstance) :
    (bench.set s v).get s = v := by
  cases s <;> rfl

theorem get_set_of_ne (bench : Bench) {s r : BenchSlot} (h : r ≠ s) (v : Option SummonInstance) :
    (bench.set s v).get r = bench.get r := by
  cases s <;> cases r <;> first | rfl | exact absurd rfl h

@[simp] theorem get_mapSummons (bench : Bench) (f : SummonInstance → SummonInstance)
    (s : BenchSlot) : (bench.mapSummons f).get s = (bench.get s).map f := by
  cases s <;> rfl

theorem mem_summons {bench : Bench} {x : SummonInstance} :
    x ∈ bench.summons ↔ ∃ s, bench.get s = some x := by
  unfold summons
  simp only [List.mem_append, Option.mem_toList]
  constructor
  · rintro ((h | h) | h)
    · exact ⟨.first, h⟩
    · exact ⟨.second, h⟩
    · exact ⟨.third, h⟩
  · rintro ⟨s, h⟩
    cases s with
    | first => exact .inl (.inl h)
    | second => exact .inl (.inr h)
    | third => exact .inr h

end Bench

/-! ## Players -/

structure PlayerState where
  main : Option SummonInstance
  bench : Bench
  deck : List CardRef
  hand : List CardRef
  prizes : List CardRef
  discard : List CardRef
  mana : ManaBank
  mainLosses : UInt8
  enchantments : List CardRef
  deriving DecidableEq, Repr

namespace PlayerState

/-- The `summon_at` of `board`, `skills`, `damage`, `destruction` and `triggers`. -/
def summonAt (player : PlayerState) : Position → Option SummonInstance
  | .main => player.main
  | .bench slot => player.bench.get slot

/-- A write through `main` or `bench[slot]`. -/
def setAt (player : PlayerState) (position : Position) (value : Option SummonInstance) :
    PlayerState :=
  match position with
  | .main => { player with main := value }
  | .bench slot => { player with bench := player.bench.set slot value }

section
variable (ps : PlayerState) (p : Position) (v : Option SummonInstance)

@[simp] theorem summonAt_main : ps.summonAt .main = ps.main := rfl

@[simp] theorem summonAt_bench (slot : BenchSlot) : ps.summonAt (.bench slot) = ps.bench.get slot :=
  rfl

@[simp] theorem summonAt_setAt_self : (ps.setAt p v).summonAt p = v := by
  cases p with
  | main => rfl
  | bench slot => simp [setAt]

theorem summonAt_setAt_of_ne {q : Position} (h : q ≠ p) :
    (ps.setAt p v).summonAt q = ps.summonAt q := by
  cases p with
  | main => cases q with
    | main => exact absurd rfl h
    | bench _ => rfl
  | bench slot => cases q with
    | main => rfl
    | bench r => exact Bench.get_set_of_ne _ (fun hr => h (by rw [hr])) _

@[simp] theorem setAt_deck : (ps.setAt p v).deck = ps.deck := by cases p <;> rfl
@[simp] theorem setAt_hand : (ps.setAt p v).hand = ps.hand := by cases p <;> rfl
@[simp] theorem setAt_prizes : (ps.setAt p v).prizes = ps.prizes := by cases p <;> rfl
@[simp] theorem setAt_discard : (ps.setAt p v).discard = ps.discard := by cases p <;> rfl
@[simp] theorem setAt_mana : (ps.setAt p v).mana = ps.mana := by cases p <;> rfl
@[simp] theorem setAt_mainLosses : (ps.setAt p v).mainLosses = ps.mainLosses := by cases p <;> rfl
@[simp] theorem setAt_enchantments : (ps.setAt p v).enchantments = ps.enchantments := by
  cases p <;> rfl

end

end PlayerState

/-! ## Turn, decisions and outcome -/

structure StackWindow where
  holder : PlayerId
  priorPass : Bool
  deriving DecidableEq, Repr

inductive Phase
  | upkeep
  | main
  | combat
  deriving DecidableEq, Repr

structure TurnState where
  activePlayer : PlayerId
  phase : Phase
  window : Option StackWindow
  normalAttackUsed : Bool
  normalRetreatUsed : Bool
  spellPlayedThisTurn : PerPlayer Bool
  deriving DecidableEq, Repr

inductive ManaSource
  | player
  | summon (position : Position)
  deriving DecidableEq, Repr

inductive PendingInput
  | manaProduction (player : PlayerId) (source : ManaSource)
  | promotion (player : PlayerId)
  | prizePick (chooser : PlayerId)
  deriving DecidableEq, Repr

inductive LossReason
  | thirdMainLoss
  | noPromotionAvailable
  | emptyDeckDraw
  | resignation
  deriving DecidableEq, Repr

structure GameOutcome where
  winner : PlayerId
  reason : LossReason
  deriving DecidableEq, Repr

inductive GameStatus
  | playing
  | ended (outcome : GameOutcome)
  | broken (breakage : Breakage)
  deriving DecidableEq, Repr

def GameStatus.isPlaying : GameStatus → Bool
  | .playing => true
  | _ => false

@[simp] theorem GameStatus.isPlaying_iff (st : GameStatus) : st.isPlaying = true ↔ st = .playing := by
  cases st <;> simp [GameStatus.isPlaying]

/-! ## The Stack and the work queue -/

inductive StackItem
  | attack (attacker : PlayerId) (target : Position)
  | spell (caster : PlayerId) (card : CardRef) (targets : List Position)
  | trigger (controller : PlayerId) (source : Position) (ability : EntityId)
      (event : TriggerEvent) (targets : List Position) (effects : List EffectLeaf)
  deriving DecidableEq, Repr

inductive MovementStep
  | leavingMain
  | enteringBench
  | leavingBench
  | enteringMain
  deriving DecidableEq, Repr

inductive WorkItem
  | destructionCheck (position : Position)
  | discardDestroyedChain (position : Position)
  | recordMainLoss (player : PlayerId)
  | recoverPrize (player : PlayerId)
  | promoteBenchSummon (player : PlayerId)
  | resolveMovementConsequences (player : PlayerId)
  | movementTrigger (step : MovementStep) (player : PlayerId) (position : Position)
  | fireTrigger (player : PlayerId) (position : Position) (event : TriggerEvent)
      (ability : EntityId)
  | lossCheck (player : PlayerId)
  | readyAll
  | drawCard
  | produceMana (player : PlayerId) (source : ManaSource)
  | beginMainPhase
  deriving DecidableEq, Repr

structure GameState where
  players : PerPlayer PlayerState
  coin : Option Coin
  turn : TurnState
  stack : List StackItem
  stackSegmentBases : List ℕ
  work : List WorkItem
  pending : Option PendingInput
  status : GameStatus
  cards : CardSet

namespace GameState

/-- One player's zones. -/
def player (s : GameState) (p : PlayerId) : PlayerState :=
  s.players.get p

/-- A write through `players.get_mut`. -/
def setPlayer (s : GameState) (p : PlayerId) (ps : PlayerState) : GameState :=
  { s with players := s.players.set p ps }

/-- `self.work.push_back` for each item in order. -/
def pushBack (s : GameState) (items : List WorkItem) : GameState :=
  { s with work := s.work ++ items }

/-- `self.work.push_front`, so that `items` end up in front in the order given. -/
def pushFront (s : GameState) (items : List WorkItem) : GameState :=
  { s with work := items ++ s.work }

def breakGame (s : GameState) (breakage : Breakage) : GameState :=
  { s with status := .broken breakage }

section
variable (s : GameState) (p : PlayerId) (ps : PlayerState) (items : List WorkItem)

@[simp] theorem player_setPlayer_self : (s.setPlayer p ps).player p = ps := by
  simp [setPlayer, player]

@[simp] theorem player_setPlayer_opponent :
    (s.setPlayer p ps).player p.opponent = s.player p.opponent := by
  simp [setPlayer, player]

theorem player_setPlayer_of_ne {q : PlayerId} (h : q ≠ p) :
    (s.setPlayer p ps).player q = s.player q :=
  PerPlayer.get_set_of_ne _ h _

theorem player_setPlayer (q : PlayerId) :
    (s.setPlayer p ps).player q = if q = p then ps else s.player q :=
  PerPlayer.get_set _ _ _ _

@[simp] theorem setPlayer_self : s.setPlayer p (s.player p) = s := by
  simp [setPlayer, player]

@[simp] theorem setPlayer_setPlayer (qs : PlayerState) :
    (s.setPlayer p ps).setPlayer p qs = s.setPlayer p qs := by
  simp [setPlayer]

@[simp] theorem setPlayer_coin : (s.setPlayer p ps).coin = s.coin := rfl
@[simp] theorem setPlayer_turn : (s.setPlayer p ps).turn = s.turn := rfl
@[simp] theorem setPlayer_stack : (s.setPlayer p ps).stack = s.stack := rfl
@[simp] theorem setPlayer_stackSegmentBases :
    (s.setPlayer p ps).stackSegmentBases = s.stackSegmentBases := rfl
@[simp] theorem setPlayer_work : (s.setPlayer p ps).work = s.work := rfl
@[simp] theorem setPlayer_pending : (s.setPlayer p ps).pending = s.pending := rfl
@[simp] theorem setPlayer_status : (s.setPlayer p ps).status = s.status := rfl
@[simp] theorem setPlayer_cards : (s.setPlayer p ps).cards = s.cards := rfl

@[simp] theorem pushBack_players : (s.pushBack items).players = s.players := rfl
@[simp] theorem pushBack_player : (s.pushBack items).player p = s.player p := rfl
@[simp] theorem pushBack_coin : (s.pushBack items).coin = s.coin := rfl
@[simp] theorem pushBack_turn : (s.pushBack items).turn = s.turn := rfl
@[simp] theorem pushBack_stack : (s.pushBack items).stack = s.stack := rfl
@[simp] theorem pushBack_stackSegmentBases :
    (s.pushBack items).stackSegmentBases = s.stackSegmentBases := rfl
@[simp] theorem pushBack_work : (s.pushBack items).work = s.work ++ items := rfl
@[simp] theorem pushBack_pending : (s.pushBack items).pending = s.pending := rfl
@[simp] theorem pushBack_status : (s.pushBack items).status = s.status := rfl
@[simp] theorem pushBack_cards : (s.pushBack items).cards = s.cards := rfl

@[simp] theorem pushBack_nil : s.pushBack [] = s := by simp [pushBack]
@[simp] theorem pushBack_pushBack (items' : List WorkItem) :
    (s.pushBack items).pushBack items' = s.pushBack (items ++ items') := by simp [pushBack]

@[simp] theorem pushFront_players : (s.pushFront items).players = s.players := rfl
@[simp] theorem pushFront_player : (s.pushFront items).player p = s.player p := rfl
@[simp] theorem pushFront_coin : (s.pushFront items).coin = s.coin := rfl
@[simp] theorem pushFront_turn : (s.pushFront items).turn = s.turn := rfl
@[simp] theorem pushFront_stack : (s.pushFront items).stack = s.stack := rfl
@[simp] theorem pushFront_stackSegmentBases :
    (s.pushFront items).stackSegmentBases = s.stackSegmentBases := rfl
@[simp] theorem pushFront_work : (s.pushFront items).work = items ++ s.work := rfl
@[simp] theorem pushFront_pending : (s.pushFront items).pending = s.pending := rfl
@[simp] theorem pushFront_status : (s.pushFront items).status = s.status := rfl
@[simp] theorem pushFront_cards : (s.pushFront items).cards = s.cards := rfl

@[simp] theorem breakGame_status (b : Breakage) : (s.breakGame b).status = .broken b := rfl
@[simp] theorem breakGame_player (b : Breakage) : (s.breakGame b).player p = s.player p := rfl

end

end GameState

end Summoners
