import Summoners.Cards.Deck
import Summoners.Scenario

/-! # Match setup

`cli/src/setup.rs`: the opening deal of two resolved Decks. The rand crate's generator, its seeding
and its shuffle are parameters; a panic is `none`.
-/

namespace Summoners
set_option autoImplicit false

inductive SetupError
  | scenario (error : InvalidScenario)

namespace Setup

def handSize : ℕ := 5

def prizeCount : ℕ := 2

/-- The id and the counter after it; the counter overflows at `u32::MAX`. -/
def mint (nextInstance : UInt32) : Option (CardInstanceId × UInt32) :=
  if nextInstance.toNat < u32Max then some (⟨nextInstance⟩, nextInstance + 1) else none

/-- `map` with `mint`, card by card. -/
def mintAll (nextInstance : UInt32) : List EntityId → Option (List CardRef × UInt32)
  | [] => some ([], nextInstance)
  | defId :: rest => do
      let (instanceId, nextInstance) ← mint nextInstance
      let (cards, nextInstance) ← mintAll nextInstance rest
      pure (⟨instanceId, defId⟩ :: cards, nextInstance)

/-- `slice::split_at`. -/
def splitAt {α : Type} (cards : List α) (mid : ℕ) : Option (List α × List α) :=
  if mid ≤ cards.length then some (cards.take mid, cards.drop mid) else none

section
variable {Rng : Type} (seedFromU64 : UInt64 → Rng)
  (shuffle : Rng → List EntityId → List EntityId × Rng)

def shuffledBody (body : List EntityId) (shuffler : Rng) : List EntityId × Rng :=
  shuffle shuffler body

def deal (deck : Deck) (nextInstance : UInt32) (shuffler : Rng) :
    Option (ScenarioPlayer × UInt32 × Rng) := do
  let (instanceId, nextInstance) ← mint nextInstance
  let starter : CardRef := ⟨instanceId, deck.starter⟩
  let (cards, shuffler) := shuffledBody shuffle deck.body shuffler
  let (body, nextInstance) ← mintAll nextInstance cards
  let (hand, rest) ← splitAt body handSize
  let (prizes, deck) ← splitAt rest prizeCount
  pure
    ({ deck := deck
       hand := hand
       prizes := prizes
       discard := []
       mana := ⟨0, 0, 0⟩
       mainLosses := 0
       main := some ⟨[starter], 0, .exhausted⟩
       bench := fun _ => none }, nextInstance, shuffler)

def initialState (library : CardLibrary) (one two : Deck) (seed : UInt64) :
    Option (Except SetupError GameState) := do
  let shuffler := seedFromU64 seed
  let (one, nextInstance, shuffler) ← deal shuffle one 1 shuffler
  let (two, _, _) ← deal shuffle two nextInstance shuffler
  let scenario : Scenario := ⟨⟨one, two⟩, .one, some .mk⟩
  pure ((fromScenario library.coreCards scenario).mapError .scenario)

end

end Setup

end Summoners
