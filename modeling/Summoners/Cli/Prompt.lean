import Summoners.Cceroby.Decimal
import Summoners.Cceroby.Text
import Summoners.Checked.Slots
import Summoners.MatchLog.Wire

/-! # The prompt of a player

`prompt.rs`, with what it reads of the views of `protocol.rs`: a menu, or a form that carries the
choices made so far. A revision is a number of 64 bits and is compared only, so it is a natural
number.
-/

namespace Summoners.Cli
set_option autoImplicit false

open Checked

/-! ## Views -/

inductive Seat
  | one
  | two
  deriving DecidableEq

inductive AbilityKind
  | skill
  | attack
  | trigger
  deriving DecidableEq

structure AbilityDescription where
  kind : AbilityKind
  id : EntityIdV1
  name : String
  deriving DecidableEq

structure CardDescription where
  name : String
  abilities : List AbilityDescription
  deriving DecidableEq

structure HandCardView where
  instanceId : UInt32
  card : CardDescription
  deriving DecidableEq

structure SummonView where
  chain : List CardDescription
  deriving DecidableEq

/-- `[Option<SummonView>; 3]` for the Bench. -/
structure BoardView where
  main : Option SummonView
  first : Option SummonView
  second : Option SummonView
  third : Option SummonView
  deriving DecidableEq

structure PlayerPublicView where
  board : BoardView
  deriving DecidableEq

structure SeatsView (α : Type) where
  one : α
  two : α
  deriving DecidableEq

inductive PendingKindView
  | manaProduction
  | promotion
  | prizePick
  deriving DecidableEq

structure PendingView where
  kind : PendingKindView
  owner : Seat
  deriving DecidableEq

structure PlayerView where
  you : Seat
  hand : List HandCardView
  players : SeatsView PlayerPublicView
  priorityHolder : Option Seat
  pending : Option PendingView
  deriving DecidableEq

/-! ## Forms -/

/-- Four slots for targets. -/
structure TargetList where
  slots : List (Option PositionV1)
  size : slots.length = 4
  deriving DecidableEq

namespace TargetList

def empty : TargetList := ⟨List.replicate 4 none, rfl⟩

def values (targets : TargetList) : List PositionV1 := targets.slots.filterMap id

/-- The list with the target, unless all slots are taken. -/
def push (targets : TargetList) (target : PositionV1) : Option TargetList :=
  match h : put target targets.slots with
  | some slots => some ⟨slots, (length_put h).trans targets.size⟩
  | none => none

def undo (targets : TargetList) : TargetList :=
  ⟨freeLast targets.slots, (length_freeLast _).trans targets.size⟩

end TargetList

inductive TargetAction
  | cast (card : UInt32)
  | skill (position : PositionV1) (skill : ℕ)
  deriving DecidableEq

inductive ManaAction
  | retreat (slot : BenchSlotV1)
  | attack (target : PositionV1)
  | convert
  | choose
  deriving DecidableEq

inductive Form
  | playCard
  | playSlot (card : UInt32)
  | upgradeCard
  | upgradePosition (card : UInt32)
  | retreatSlot
  | attackTarget
  | endTurn
  | mana (action : ManaAction)
  | promotion
  | prize
  | castCard
  | skillPosition
  | skillAbility (position : PositionV1)
  | targets (action : TargetAction) (targets : TargetList)
  | manaHint (action : TargetAction) (targets : TargetList)
  | resign
  deriving DecidableEq

inductive PromptState
  | menu (revision : ℕ)
  | form (revision : ℕ) (form : Form)
  deriving DecidableEq

def PromptState.revision : PromptState → ℕ
  | .menu revision => revision
  | .form revision _ => revision

inductive PromptEffect
  | render (lines : List String)
  | submit (revision : ℕ) (action : ActionV1)
  | cancelled
  deriving DecidableEq

def revised (state : PromptState) (revision : ℕ) : PromptState × List PromptEffect :=
  if state.revision ≠ revision then (.menu revision, [.cancelled]) else (state, [])

/-! ## Lines -/

/-- `Debug` of a seat. -/
def Seat.debug : Seat → String
  | .one => "One"
  | .two => "Two"

/-- `Debug` of the kind of a decision. -/
def PendingKindView.debug : PendingKindView → String
  | .manaProduction => "ManaProduction"
  | .promotion => "Promotion"
  | .prizePick => "PrizePick"

def prompt (view : PlayerView) : List String :=
  let actions := "Actions: 1. Play Summon 2. Upgrade Summon 3. Retreat 4. Declare Attack " ++
    "5. End Turn 6. Pass Priority 7. Convert Coin 8. Resign 9. Cast Spell 10. Activate Skill"
  let awaiting := match view.pending with
    | some pending =>
        let kind := pending.kind.debug
        let owner := pending.owner.debug
        [s!"Awaiting {kind} from {owner}"]
    | none => []
  let priority := match view.priorityHolder with
    | some holder =>
        let holder := holder.debug
        [s!"Priority: Some({holder})"]
    | none => []
  actions :: (awaiting ++ priority)

/-- The texts with their numbers, from one. -/
def numbered (texts : List String) : List String :=
  texts.mapIdx (fun index text =>
    let number := index + 1
    s!"{number}. {text}")

def handLines (view : PlayerView) : List String :=
  numbered (view.hand.map (fun card => card.card.name))

def benchLines : List String := ["1. Bench 1", "2. Bench 2", "3. Bench 3"]

def positionLines : List String := ["1. Main", "2. Bench 1", "3. Bench 2", "4. Bench 3"]

def manaLines : List String := ["1. Matter", "2. Mind", "3. Spirit"]

def manaHintLines : List String := ["1. Matter", "2. Mind", "3. Spirit", "4. No hint"]

def targetLines : List String :=
  ["1. Main", "2. Bench 1", "3. Bench 2", "4. Bench 3", "5. Done", "6. Undo", "7. Clear"]

/-! ## Numbers -/

def player : Seat → PlayerIdV1
  | .one => .one
  | .two => .two

def slot : Option ℕ → Option BenchSlotV1
  | some 1 => some .first
  | some 2 => some .second
  | some 3 => some .third
  | _ => none

def position : Option ℕ → Option PositionV1
  | some 1 => some .main
  | some 2 => some (.bench .first)
  | some 3 => some (.bench .second)
  | some 4 => some (.bench .third)
  | _ => none

def mana : Option ℕ → Option ManaTypeV1
  | some 1 => some .matter
  | some 2 => some .mind
  | some 3 => some .spirit
  | _ => none

def manaHint : Option ℕ → Option (Option ManaTypeV1)
  | some 1 => some (some .matter)
  | some 2 => some (some .mind)
  | some 3 => some (some .spirit)
  | some 4 => some none
  | _ => none

/-! ## Steps -/

/-- The next state and the effects. -/
abbrev Outcome := PromptState × List PromptEffect

def submit (revision : ℕ) (action : ActionV1) : Outcome :=
  (.menu revision, [.submit revision action])

def invalid (revision : ℕ) : Outcome := (.menu revision, [.render ["Invalid selection"]])

def opened (revision : ℕ) (form : Form) (lines : List String) : Outcome :=
  (.form revision form, [.render lines])

/-- The Skills on the top card of the own Summon at a position. -/
def skillsAt (view : PlayerView) (position : PositionV1) : List AbilityDescription :=
  let board := match view.you with
    | .one => view.players.one.board
    | .two => view.players.two.board
  let summon := match position with
    | .main => board.main
    | .bench .first => board.first
    | .bench .second => board.second
    | .bench .third => board.third
  match summon.bind (fun summon => summon.chain.getLast?) with
  | some card => card.abilities.filter (fun ability => ability.kind = .skill)
  | none => []

def skillLines (view : PlayerView) (position : PositionV1) : List String :=
  numbered ((skillsAt view position).map (fun skill => skill.name))

/-- `map_or_else` with `invalid` for the missing value. -/
def orInvalid {α : Type} (revision : ℕ) (value : Option α) (next : α → Outcome) : Outcome :=
  match value with
  | some a => next a
  | none => invalid revision

/-- The entry that a number from one stands for. -/
def chosen {α : Type} (items : List α) (n : Option ℕ) : Option α :=
  (n.filter (fun n => 1 ≤ n)).bind (fun n => items[n - 1]?)

def cardNext (revision : ℕ) (view : PlayerView) (n : Option ℕ) (lines : List String)
    (next : UInt32 → Form) : Outcome :=
  orInvalid revision (chosen view.hand n) (fun card => opened revision (next card.instanceId) lines)

def slotNext (revision : ℕ) (n : Option ℕ) (next : BenchSlotV1 → Form) : Outcome :=
  orInvalid revision (slot n) (fun slot => opened revision (next slot) manaHintLines)

def positionNext (revision : ℕ) (n : Option ℕ) (next : PositionV1 → Form) : Outcome :=
  orInvalid revision (position n) (fun position => opened revision (next position) manaHintLines)

def slotSubmit (revision : ℕ) (n : Option ℕ) (make : BenchSlotV1 → ActionV1) : Outcome :=
  orInvalid revision (slot n) (fun slot => submit revision (make slot))

def positionSubmit (revision : ℕ) (n : Option ℕ) (make : PositionV1 → ActionV1) : Outcome :=
  orInvalid revision (position n) (fun position => submit revision (make position))

def manaSubmit (revision : ℕ) (actor : PlayerIdV1) (action : ManaAction) (n : Option ℕ) : Outcome :=
  match action with
  | .convert =>
      orInvalid revision (mana n) (fun manaType => submit revision (.convertCoin actor manaType))
  | .choose =>
      orInvalid revision (mana n) (fun manaType => submit revision (.chooseManaType actor manaType))
  | .retreat slot =>
      orInvalid revision (manaHint n) (fun hint => submit revision (.retreat actor slot hint))
  | .attack target =>
      orInvalid revision (manaHint n) (fun hint =>
        submit revision (.declareAttack actor target hint))

def confirmSubmit (revision : ℕ) (n : Option ℕ) (action : ActionV1) : Outcome :=
  if n = some 1 then submit revision action else invalid revision

def targetForm (revision : ℕ) (action : TargetAction) (targets : TargetList) : Outcome :=
  opened revision (.targets action targets) targetLines

def targetStep (revision : ℕ) (action : TargetAction) (targets : TargetList) (n : Option ℕ) :
    Outcome :=
  if n = some 5 then opened revision (.manaHint action targets) manaHintLines
  else if n = some 6 then targetForm revision action targets.undo
  else if n = some 7 then targetForm revision action .empty
  else
    orInvalid revision (position n) (fun position =>
      orInvalid revision (targets.push position) (targetForm revision action))

def targetSubmit (revision : ℕ) (view : PlayerView) (actor : PlayerIdV1) (action : TargetAction)
    (targets : TargetList) (hint : Option ManaTypeV1) : Outcome :=
  match action with
  | .cast card => submit revision (.castSpell actor card targets.values hint)
  | .skill position skill =>
      orInvalid revision (skillsAt view position)[skill]? (fun ability =>
        submit revision (.activateSkill actor position ability.id targets.values hint))

def skillNext (revision : ℕ) (view : PlayerView) (position : PositionV1) (n : Option ℕ) : Outcome :=
  let skills := skillsAt view position
  orInvalid revision
    (((n.filter (fun n => 1 ≤ n)).map (fun n => n - 1)).filter (fun skill => skill < skills.length))
    (fun skill => targetForm revision (.skill position skill) .empty)

def menu (revision : ℕ) (view : PlayerView) (number : Option ℕ) : Outcome :=
  match number with
  | some 1 => opened revision .playCard (handLines view)
  | some 2 => opened revision .upgradeCard (handLines view)
  | some 3 => opened revision .retreatSlot benchLines
  | some 4 => opened revision .attackTarget positionLines
  | some 5 => opened revision .endTurn ["Enter 1 to confirm, or cancel"]
  | some 6 => submit revision (.passPriority (player view.you))
  | some 7 => opened revision (.mana .convert) manaLines
  | some 8 => opened revision .resign ["Confirm Give up with yes"]
  | some 9 => opened revision .castCard (handLines view)
  | some 10 => opened revision .skillPosition positionLines
  | _ => invalid revision

def formStep (revision : ℕ) (view : PlayerView) (actor : PlayerIdV1) (form : Form) (n : Option ℕ) :
    Outcome :=
  match form with
  | .playCard => cardNext revision view n benchLines .playSlot
  | .playSlot card => slotSubmit revision n (.playSummon actor card)
  | .upgradeCard => cardNext revision view n positionLines .upgradePosition
  | .upgradePosition card => positionSubmit revision n (.upgradeSummon actor card)
  | .retreatSlot => slotNext revision n (fun slot => .mana (.retreat slot))
  | .attackTarget => positionNext revision n (fun target => .mana (.attack target))
  | .mana action => manaSubmit revision actor action n
  | .endTurn => confirmSubmit revision n (.endTurn actor)
  | .resign => confirmSubmit revision n (.resign actor)
  | .promotion => slotSubmit revision n (.choosePromotion actor)
  | .prize =>
      orInvalid revision (n.filter (fun n => 0 < n)) (fun n =>
        submit revision (.choosePrize actor (n - 1)))
  | .castCard => cardNext revision view n targetLines (fun card => .targets (.cast card) .empty)
  | .targets action targets => targetStep revision action targets n
  | .manaHint action targets =>
      orInvalid revision (manaHint n) (fun hint =>
        targetSubmit revision view actor action targets hint)
  | .skillPosition =>
      orInvalid revision (position n) (fun position =>
        opened revision (.skillAbility position) (skillLines view position))
  | .skillAbility position => skillNext revision view position n

/-- `line.trim()`. -/
def trimmed (input : String) : String := String.ofList (Cceroby.trim input.toList)

/-- `eq_ignore_ascii_case` with a text in lower case. -/
def matchesWord (word text : String) : Bool := text.toList.map toAsciiLowercase = word.toList

/-- The number that a line stands for; `usize` is 64 bits wide. -/
def number (state : PromptState) (input : String) : Option ℕ :=
  match state with
  | .form _ .resign =>
      if matchesWord "yes" (trimmed input) then some 1
      else Cceroby.parseUnsigned Cceroby.u64Max (trimmed input)
  | _ => Cceroby.parseUnsigned Cceroby.u64Max (trimmed input)

def reduce (state : PromptState) (view : PlayerView) (input : String) : Outcome :=
  if matchesWord "cancel" (trimmed input) then
    (.menu state.revision, [.cancelled, .render (prompt view)])
  else
    match state with
    | .menu revision => menu revision view (number state input)
    | .form revision form => formStep revision view (player view.you) form (number state input)

def forcedForm (view : PlayerView) : Option Form :=
  view.pending.map (fun pending => match pending.kind with
    | .manaProduction => .mana .choose
    | .promotion => .promotion
    | .prizePick => .prize)

end Summoners.Cli
