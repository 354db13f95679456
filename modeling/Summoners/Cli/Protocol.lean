import Summoners.Cceroby.ArtworkKey
import Summoners.Cli.Prompt
import Summoners.MatchLog.EventWire

/-! # What a player is shown

The views and the notices of `protocol.rs`, with the texts of `card_text.rs` and `terminal.rs` they are
made of. `PlayerView.forPrompt` is the part of a view that the prompt reads.
-/

namespace Summoners.Cli.Protocol
set_option autoImplicit false

/-! ## Cards -/

structure AbilityDescription where
  kind : AbilityKind
  id : EntityIdV1
  name : String
  cost : Option String
  effects : List String
  triggerEvent : Option String
  timing : Option String
  respondable : Bool
  persistent : Bool
  modifiers : List String
  deriving DecidableEq

structure CardDescription where
  name : String
  life : Option UInt32
  retreatCost : Option UInt32
  manaTypes : List String
  cost : Option String
  abilities : List AbilityDescription
  effects : List String
  modifiers : List String
  timing : Option String
  persistent : Bool
  deriving DecidableEq

/-- `terminal_text`: controls are escaped. -/
def terminalText (value : String) : String :=
  String.ofList (value.toList.flatMap (fun character =>
    if character = '\n' then "\\n".toList
    else if character = '\r' then "\\r".toList
    else if character = '\t' then "\\t".toList
    else if character.toNat = 27 then "\\x1b".toList
    else if Cceroby.isControl character then
      let digits := Nat.toDigits 16 character.toNat
      "\\u\x7b".toList ++ List.replicate (4 - digits.length) '0' ++ digits ++ ['\x7d']
    else [character]))

def playerText : PlayerId → String
  | .one => "Player One"
  | .two => "Player Two"

def benchText : BenchSlot → String
  | .first => "Bench 1"
  | .second => "Bench 2"
  | .third => "Bench 3"

def positionText : Position → String
  | .main => "Main"
  | .bench slot => benchText slot

def manaText : ManaType → String
  | .matter => "Matter"
  | .mind => "Mind"
  | .spirit => "Spirit"

/-- The format `+` of a signed number. -/
def signed (amount : Int32) : String :=
  if 0 ≤ amount.toInt then s!"+{amount.toInt}" else s!"{amount.toInt}"

def modifier : Component → Option String
  | .passive (.opposingRetreatCostDelta amount) => some s!"opposing retreat cost {signed amount}"
  | .passive (.incomingAttackDamageReduction amount) =>
      some s!"reduce incoming attack damage by {amount}"
  | _ => none

def timing : Component → Option String
  | .timing .support => some "support"
  | .timing .attack => some "attack"
  | _ => none

def triggerEvent : TriggerEvent → String
  | .yourUpkeep => "your upkeep"
  | .entersMain => "enters Main"
  | .entersBench => "enters Bench"
  | .leavesMain => "leaves Main"
  | .leavesBench => "leaves Bench"
  | .anySummonDestroyed => "any Summon destroyed"

def event : Component → Option String
  | .event ev => some (triggerEvent ev)
  | _ => none

def respondable : Component → Bool
  | .respondable => true
  | _ => false

def persistent : Component → Bool
  | .persistent => true
  | _ => false

def costText (cost : Cost) : String :=
  s!"matter {cost.matter} mind {cost.mind} spirit {cost.spirit} generic {cost.generic}"

def effectText : EffectLeaf → String
  | .dealDamage damage => s!"deal {damage.base} damage"
  | .heal amount _ => s!"heal {amount}"
  | .moveSummon => "move a Summon"
  | .swapPositions => "swap positions"
  | .blockResponses _ _ => "block responses"
  | .returnSpellFromDiscard => "return a Spell from discard"
  | .lookAtPrizes => "look at Prizes"
  | .drawCards amount => s!"draw {amount} cards"
  | .returnSpellToDeckTop => "return a Spell to deck top"
  | .produceMana _ => "produce Mana"
  | .cannotBeMovedByOpponent _ => "prevent opponent movement"
  | .readySummon => "ready a Summon"
  | .swapOpposingPositions => "swap opposing positions"

def describeAbility (kind : AbilityKind) (ability : Entity) : AbilityDescription where
  kind := kind
  id := EntityIdV1.fromCore ability.id
  name := ((ability.get .name).map terminalText).getD "Unnamed ability"
  cost := (ability.get .cost).map costText
  effects := (ability.all .effectLeaf).map effectText
  triggerEvent := ability.components.findSome? event
  timing := ability.components.findSome? timing
  respondable := ability.components.any respondable
  persistent := ability.components.any persistent
  modifiers := ability.components.filterMap modifier

def describeCard (card : Entity) : CardDescription where
  name := ((card.get .name).map terminalText).getD "Unnamed card"
  life := card.get .life
  retreatCost := card.get .retreatCost
  manaTypes := ((card.get .manaTypes).getD []).map manaText
  cost := (card.get .cost).map costText
  abilities :=
    (card.all .skill).map (describeAbility .skill) ++
      (card.all .attack).map (describeAbility .attack) ++
        (card.all .trigger).map (describeAbility .trigger)
  effects := (card.all .effectLeaf).map effectText
  modifiers := card.components.filterMap modifier
  timing := card.components.findSome? timing
  persistent := card.components.any persistent

/-! ## Descriptions and identities -/

/-- A `HashMap` filled in this order: a later entry of a key replaces an earlier one. -/
def lookup {κ α : Type} [DecidableEq κ] (entries : List (κ × α)) (key : κ) : Option α :=
  (entries.reverse.find? (fun entry => entry.1 = key)).map (·.2)

structure CardDescriptions where
  entries : List (EntityId × CardDescription)

def CardDescriptions.fromCardSet (cards : CardSet) : CardDescriptions :=
  ⟨cards.entities.map (fun card => (card.id, describeCard card))⟩

def CardDescriptions.get (descriptions : CardDescriptions) (definition : EntityId) :
    CardDescription :=
  (lookup descriptions.entries definition).getD
    { name := "Unknown card"
      life := none
      retreatCost := none
      manaTypes := []
      cost := none
      abilities := []
      effects := []
      modifiers := []
      timing := none
      persistent := false }

structure CardIdentityMap where
  entries : List (CardInstanceId × CardDescription)

/-- The cards of a player, in the order in which they are inserted. -/
def identified (player : PlayerState) : List CardRef :=
  player.deck ++ player.hand ++ player.prizes ++ player.discard ++ player.enchantments ++
    (player.main.toList ++ player.bench.summons).flatMap (fun summon => summon.chain.layers)

def CardIdentityMap.fromInitialState (state : GameState) (descriptions : CardDescriptions) :
    CardIdentityMap :=
  ⟨(identified state.players.one ++ identified state.players.two).map (fun card =>
    (card.instanceId, descriptions.get card.defId))⟩

def CardIdentityMap.name (identities : CardIdentityMap) (card : CardInstanceId) : String :=
  ((lookup identities.entries card).map (fun description => description.name)).getD "Unknown card"

/-! ## Notices -/

structure Notice where
  text : String
  deriving DecidableEq

section
variable (identities : CardIdentityMap) (viewer : PlayerId)

def privateCardNotice (action : String) (player : PlayerId) (card : CardInstanceId) : String :=
  if player = viewer then s!"{playerText player} {action} {identities.name card}"
  else s!"{playerText player} {action} a card"

def noticeText : GameEvent → String
  | .turnBegan player => s!"{playerText player} began a turn"
  | .summonsReadied player positions =>
      let positions := ", ".intercalate (positions.map positionText)
      s!"{playerText player} readied {positions}"
  | .cardDrawn player card => privateCardNotice identities viewer "drew" player card
  | .manaProduced player _ manaType => s!"{playerText player} produced {manaText manaType} Mana"
  | .summonPlayed player card slot =>
      s!"{playerText player} played {identities.name card} to {benchText slot}"
  | .summonUpgraded player card position =>
      s!"{playerText player} upgraded {positionText position} with {identities.name card}"
  | .spellCast player card _ => s!"{playerText player} cast {identities.name card}"
  | .skillActivated player position _ =>
      s!"{playerText player} activated a Skill at {positionText position}"
  | .attackDeclared player target =>
      s!"{playerText player} declared an attack at {positionText target}"
  | .priorityPassed player => s!"{playerText player} passed Priority"
  | .stackItemResolved _ => "A Stack item resolved"
  | .damageCalculationStarted _ base _ => s!"Damage calculation began at {base}"
  | .damageAdjustmentApplied _ _ _ _ _ output => s!"Damage adjusted to {output}"
  | .damageAdjustmentSkipped .. => "A damage adjustment was skipped"
  | .damageApplied _ amount before after => s!"Damage {amount} applied: {before} to {after}"
  | .healed position amount => s!"{positionText position} healed for {amount}"
  | .summonDestroyed position _ => s!"{positionText position} was destroyed"
  | .prizeRecovered player card =>
      privateCardNotice identities viewer "recovered a Prize" player card
  | .prizesViewed player prizes =>
      if player = viewer then
        let names := ", ".intercalate (prizes.map identities.name)
        s!"{playerText player} viewed Prizes: {names}"
      else s!"{playerText player} viewed {prizes.length} Prizes"
  | .summonPromoted player slot => s!"{playerText player} promoted {benchText slot}"
  | .summonsSwapped player slot => s!"{playerText player} swapped Main with {benchText slot}"
  | .triggerFired controller position _ _ =>
      s!"{playerText controller} triggered an ability at {positionText position}"
  | .coinConverted player manaType =>
      s!"{playerText player} converted Coin to {manaText manaType} Mana"
  | .manaDeducted player manaType amount =>
      s!"{playerText player} spent {amount} {manaText manaType} Mana"
  | .gameEnded winner _ => s!"{playerText winner} won the game"

end

def playerNotices (events : List GameEvent) (identities : CardIdentityMap) (viewer : PlayerId) :
    List Notice :=
  events.map (fun event => ⟨noticeText identities viewer event⟩)

/-! ## Views -/

structure HandCardView where
  instanceId : UInt32
  card : CardDescription
  deriving DecidableEq

structure PublicCardView where
  card : CardDescription
  deriving DecidableEq

inductive ReadinessView
  | ready
  | exhausted
  deriving DecidableEq

structure SummonView where
  chain : List CardDescription
  damage : UInt32
  readiness : ReadinessView
  owner : Seat
  controller : Seat
  deriving DecidableEq

structure BoardView where
  main : Option SummonView
  first : Option SummonView
  second : Option SummonView
  third : Option SummonView
  deriving DecidableEq

structure ManaView where
  matter : UInt32
  mind : UInt32
  spirit : UInt32
  deriving DecidableEq

structure PlayerPublicView where
  board : BoardView
  mana : ManaView
  mainLosses : UInt8
  discard : List PublicCardView
  persistent : List PublicCardView
  deckCount : ℕ
  prizeCount : ℕ
  handCount : ℕ
  deriving DecidableEq

inductive PhaseView
  | upkeep
  | main
  | combat
  deriving DecidableEq

inductive StackView
  | attack (attacker : Seat) (target : String)
  | spell (caster : Seat) (card : CardDescription) (targets : List String)
  | trigger (controller : Seat) (source event : String) (targets effects : List String)
  deriving DecidableEq

inductive OutcomeReasonView
  | thirdMainLoss
  | noPromotionAvailable
  | emptyDeckDraw
  | resignation
  deriving DecidableEq

structure OutcomeView where
  winner : Seat
  reason : OutcomeReasonView
  deriving DecidableEq

structure PlayerView where
  you : Seat
  hand : List HandCardView
  players : SeatsView PlayerPublicView
  coin : Bool
  stack : List StackView
  phase : PhaseView
  activePlayer : Seat
  priorityHolder : Option Seat
  pending : Option PendingView
  outcome : Option OutcomeView
  deriving DecidableEq

/-- `From<PlayerId>` of a seat. -/
def Seat.ofPlayer : PlayerId → Seat
  | .one => .one
  | .two => .two

/-- `From<Seat>` of a player. -/
def Seat.player : Seat → PlayerId
  | .one => .one
  | .two => .two

@[simp] theorem Seat.player_ofPlayer (p : PlayerId) : Seat.player (Seat.ofPlayer p) = p := by
  cases p <;> rfl

@[simp] theorem Seat.ofPlayer_player (seat : Seat) : Seat.ofPlayer (Seat.player seat) = seat := by
  cases seat <;> rfl

def readinessView : Readiness → ReadinessView
  | .ready => .ready
  | .exhausted => .exhausted

def phaseView : Phase → PhaseView
  | .upkeep => .upkeep
  | .main => .main
  | .combat => .combat

def pendingView : PendingInput → PendingView
  | .manaProduction player _ => ⟨.manaProduction, Seat.ofPlayer player⟩
  | .promotion player => ⟨.promotion, Seat.ofPlayer player⟩
  | .prizePick chooser => ⟨.prizePick, Seat.ofPlayer chooser⟩

def reasonView : LossReason → OutcomeReasonView
  | .thirdMainLoss => .thirdMainLoss
  | .noPromotionAvailable => .noPromotionAvailable
  | .emptyDeckDraw => .emptyDeckDraw
  | .resignation => .resignation

def outcomeView (outcome : GameOutcome) : OutcomeView :=
  ⟨Seat.ofPlayer outcome.winner, reasonView outcome.reason⟩

section
variable (descriptions : CardDescriptions)

def summonView (summon : SummonInstance) : SummonView where
  chain := summon.chain.layers.map (fun card => descriptions.get card.defId)
  damage := summon.damage
  readiness := readinessView summon.readiness
  owner := Seat.ofPlayer summon.owner
  controller := Seat.ofPlayer summon.controller

def publicPlayer (player : PlayerState) : PlayerPublicView where
  board :=
    { main := player.main.map (summonView descriptions)
      first := player.bench.first.map (summonView descriptions)
      second := player.bench.second.map (summonView descriptions)
      third := player.bench.third.map (summonView descriptions) }
  mana := ⟨player.mana.matter, player.mana.mind, player.mana.spirit⟩
  mainLosses := player.mainLosses
  discard := player.discard.map (fun card => ⟨descriptions.get card.defId⟩)
  persistent := player.enchantments.map (fun card => ⟨descriptions.get card.defId⟩)
  deckCount := player.deck.length
  prizeCount := player.prizes.length
  handCount := player.hand.length

def stackView : StackItem → StackView
  | .attack attacker target => .attack (Seat.ofPlayer attacker) (positionText target)
  | .spell caster card targets =>
      .spell (Seat.ofPlayer caster) (descriptions.get card.defId) (targets.map positionText)
  | .trigger controller source _ ev targets effects =>
      .trigger (Seat.ofPlayer controller) (positionText source) (triggerEvent ev)
        (targets.map positionText) (effects.map effectText)

end

/-- The outcome that a view shows: that of a match that has ended. -/
def outcomeOf : GameStatus → Option OutcomeView
  | .ended outcome => some (outcomeView outcome)
  | .playing | .broken _ => none

def playerView (state : GameState) (viewer : PlayerId) (descriptions : CardDescriptions) :
    PlayerView where
  you := Seat.ofPlayer viewer
  hand := (state.players.get viewer).hand.map (fun card =>
    ⟨card.instanceId.id, descriptions.get card.defId⟩)
  players :=
    { one := publicPlayer descriptions state.players.one
      two := publicPlayer descriptions state.players.two }
  coin := state.coin.isSome
  stack := state.stack.map (stackView descriptions)
  phase := phaseView state.turn.phase
  activePlayer := Seat.ofPlayer state.turn.activePlayer
  priorityHolder := state.turn.window.map (fun window => Seat.ofPlayer window.holder)
  pending := state.pending.map pendingView
  outcome := outcomeOf state.status

/-! ## What the prompt reads of a view -/

def CardDescription.forPrompt (card : CardDescription) : Cli.CardDescription where
  name := card.name
  abilities := card.abilities.map (fun ability => ⟨ability.kind, ability.id, ability.name⟩)

def SummonView.forPrompt (summon : SummonView) : Cli.SummonView :=
  ⟨summon.chain.map CardDescription.forPrompt⟩

def PlayerPublicView.forPrompt (player : PlayerPublicView) : Cli.PlayerPublicView where
  board :=
    { main := player.board.main.map SummonView.forPrompt
      first := player.board.first.map SummonView.forPrompt
      second := player.board.second.map SummonView.forPrompt
      third := player.board.third.map SummonView.forPrompt }

def PlayerView.forPrompt (view : PlayerView) : Cli.PlayerView where
  you := view.you
  hand := view.hand.map (fun card => ⟨card.instanceId, card.card.forPrompt⟩)
  players := ⟨view.players.one.forPrompt, view.players.two.forPrompt⟩
  priorityHolder := view.priorityHolder
  pending := view.pending

/-! ## Messages -/

def version : UInt32 := 1

inductive ClientEnvelope
  | join (version : UInt32) (seat : Seat)
  | submit (version : UInt32) (requestId basedOnRevision : ℕ) (action : ActionV1)
  deriving DecidableEq

inductive SubmissionResult
  | accepted
  | rejected (reason : String)
  deriving DecidableEq

inductive ServerEnvelope
  | waiting (seat : Seat)
  | update (revision : ℕ) (view : PlayerView) (notices : List Notice) (reply : Option ℕ)
      (result : Option SubmissionResult)
  | finished (outcome : OutcomeView) (view : PlayerView) (notices : List Notice)
      (reply : Option ℕ)
  | stopped (reason : String)
  | rejected (requestId : Option ℕ) (reason : String)
  deriving DecidableEq

inductive ProtocolError
  | actor
  | conversion (reason : String)
  deriving DecidableEq

/-- `Display` of an error of the state, and of a conversion. -/
def rebuildText : StateRebuildError → String
  | .invalidEntityId value => s!"the entity ID is not valid: {value}"
  | .emptyUpgradeChain => "the upgrade chain has no layers"
  | .unsupportedBreakageRule rule => s!"the breakage rule is not supported: {rule}"

def conversionText : WireConversionError → String
  | .invalidEntityId value => s!"the entity ID is not valid: {value}"
  | .stateRebuild error => rebuildText error

def normalizeAction (seat : PlayerId) (action : ActionV1) : Except ProtocolError GameAction := do
  let action ← action.tryIntoCore.mapError (fun error => .conversion (conversionText error))
  if action.actor = seat then pure action else .error .actor

theorem normalizeAction_ok {seat : PlayerId} {wire : ActionV1} {action : GameAction} :
    normalizeAction seat wire = .ok action ↔ wire.tryIntoCore = .ok action ∧ action.actor = seat := by
  unfold normalizeAction
  cases hwire : wire.tryIntoCore with
  | error e => simp [Except.mapError, bind, Except.bind]
  | ok found =>
    simp only [Except.mapError, bind, Except.bind, Except.ok.injEq]
    split_ifs with hactor
    · constructor
      · intro h
        obtain rfl := Except.ok.inj h
        exact ⟨rfl, hactor⟩
      · rintro ⟨rfl, -⟩
        rfl
    · constructor
      · intro h
        cases h
      · rintro ⟨rfl, h⟩
        exact absurd h hactor

end Summoners.Cli.Protocol
