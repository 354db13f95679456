import Summoners.Cards.Library
import Summoners.Fixtures

/-! # A specimen Set

One small Set document and the ids the uuid crate mints for its codes, for the concrete inputs on
which results about loaded sets are tried.
-/

namespace Summoners.Specimen
set_option autoImplicit false

open RunToCompletion

/-- `Uuid::new_v5` on the texts the specimen mints. -/
def minted : List (String × String) := [
  ("set:study", "8eb0e13e-691c-5678-a26f-74cb588ac85c"),
  ("set:study/card:herald", "fd8537b2-12e3-55c7-b7e1-11b51a6a27c3"),
  ("set:study/card:herald/ability:attack:strike", "5c1c060d-a48a-5f44-ae7c-78ed6864b5aa"),
  ("set:study/card:herald/ability:trigger:tithe", "b89c6504-5786-5ff4-a476-56e517e2c0e8"),
  ("set:study/card:herald/ability:trigger:mourn", "0c60b129-914b-5a1d-b94d-86ca92e44fd7"),
  ("set:study/card:drifter", "94593bce-9453-5d0b-93b2-fe7a4d947dfc"),
  ("set:study/card:drifter/ability:attack:strike", "7dbe0099-2c04-5e79-83ed-c54598f5b1b4"),
  ("set:study/card:drifter/ability:skill:shift", "83c81622-54b3-58cd-ab1d-70059f898caf"),
  ("set:study/card:drifter/ability:trigger:arrive", "3245b090-3d6a-5d81-8a21-43de3d4e38aa"),
  ("set:study/card:turncoat", "e819d4fc-895e-5216-8420-0f7f64f03cbe"),
  ("set:study/card:turncoat/ability:attack:strike", "ecc36df4-a001-58ad-8d64-24ba67ec5a2d"),
  ("set:study/card:turncoat/ability:skill:whirl", "1b179127-1804-58d3-9ec8-bb2998d4538a"),
  ("set:study/card:turncoat/ability:trigger:arrive", "d5ddf920-9940-5c9e-9519-084c83e7cf02"),
  ("set:study/card:mauler", "aa047700-1035-55cf-a01b-fc55b5c96099"),
  ("set:study/card:mauler/ability:attack:maul", "69a4f912-e3c2-5486-9c1f-adc6c8139f2f"),
  ("set:study/card:warden", "253ec23b-645d-5805-bc71-70c541e19a84"),
  ("set:study/card:warden/ability:attack:strike", "f0d872a3-6cfe-544b-b87e-45346557d972"),
  ("set:study/card:warden/ability:passive:toll", "476b6303-088f-5922-a365-aee9d5fe4de3"),
  ("set:study/card:bolt", "f0516da7-8207-5e6a-9ab2-ae5cbeaa9f77"),
  ("set:study/card:bolt-a", "4d0f95c7-a38e-5a6f-a0aa-7eb39aa979c2"),
  ("set:study/card:bolt-b", "ac127fce-6cd1-5c27-b489-7331661814d7"),
  ("set:study/card:bolt-c", "2a1b3286-2e8f-56e0-b03c-c77cb7f854c2"),
  ("set:study/card:bolt-d", "c02e6a85-32a7-5ed3-a8e4-3dae8e3981ce"),
  ("set:study/card:bolt-e", "1d0a6cad-333c-5ec4-bf10-bfd85b385cbc"),
  ("set:study/card:bolt-f", "26d5bed9-a7f5-5774-b8b1-6992ab8a64d1"),
  ("set:study/card:bolt-g", "2e2264f8-c643-5104-bfa4-2963b5f9ea33"),
  ("set:study/card:bolt-h", "b3f08b6e-70fd-5e13-b377-c416c265d9c6"),
  ("set:study/card:bolt-i", "0f4091e0-3211-5082-895e-f5f1b786bf0a"),
  ("set:study/card:bolt-j", "4fd568a3-2840-5dfe-b792-a33aa09b33d8")]

def newV5 (_ : Vector UInt8 16) (name : String) : String :=
  ((minted.find? (fun r => r.1 = name)).map Prod.snd).getD ""

/-! ## Cards and documents -/

def strike : Dto.Ability :=
  { code := "strike"
    name := "Strike"
    text := ""
    kind := .attack
    cost := some []
    event := none
    response := none
    effects := [.damage .defendingMain 10 [] []]
    modifier := none }

def skill (code : String) (effects : List Dto.Effect) : Dto.Ability :=
  { strike with code := code, kind := .skill, effects := effects }

def trigger (code : String) (event : Dto.TriggerEvent) (response : Dto.ResponseMode)
    (effects : List Dto.Effect) : Dto.Ability :=
  { strike with
    code := code
    kind := .trigger
    cost := none
    event := some event
    response := some response
    effects := effects }

/-- A Base Summon of 10 Life that strikes for 10. -/
def summon (code : String) (types : List Dto.ManaType) (abilities : List Dto.Ability) : Dto.Card :=
  { code := code
    name := code
    text := ""
    kind := .summon
    form := some .base
    life := some 10
    types := some types
    retreat := some 0
    timing := none
    persistence := none
    cost := none
    abilities := strike :: abilities
    effects := []
    modifiers := [] }

def spell (code : String) (timing : Dto.SpellTiming) (effects : List Dto.Effect) : Dto.Card :=
  { code := code
    name := code
    text := ""
    kind := .spell
    form := none
    life := none
    types := none
    retreat := none
    timing := some timing
    persistence := some .discard
    cost := some []
    abilities := []
    effects := effects
    modifiers := [] }

def herald : Dto.Card :=
  summon "herald" [.matter, .mind] [
    trigger "tithe" .yourUpkeep .respondable [.produceMana .source],
    trigger "mourn" .anySummonDestroyed .respondable [.heal .source 10]]

def drifter : Dto.Card :=
  summon "drifter" [.matter, .mind] [
    skill "shift" [.produceMana .selectedOwnSummon,
      .moveSummon .selectedOwnBenchedSummon .emptyOwnBench],
    trigger "arrive" .entersMain .immediate [.heal .source 10]]

def turncoat : Dto.Card :=
  summon "turncoat" [.matter] [
    skill "whirl" [.swapPositions .ownMainWithSelectedBench,
      .swapPositions .ownMainWithSelectedBench],
    trigger "arrive" .entersMain .immediate [.heal .source 10]]

def mauler : Dto.Card :=
  { summon "mauler" [.matter] [] with
    abilities := [{ strike with
      code := "maul"
      effects := [.damage .defendingMain 10 [] [], .damage .defendingMain 10 [] []] }] }

/-- A Summon that adds to the Retreat Cost of its opponents. -/
def warden (toll : UInt32) : Dto.Card :=
  summon "warden" [.matter] [{ strike with
    code := "toll"
    kind := .passive
    cost := none
    effects := []
    modifier := some (.opposingRetreatCost toll) }]

def bolt : Dto.Card := spell "bolt" .attack [.damage .selectedOpposingPosition 10 [] []]

/-- Ten Spells, enough for the body of a Deck. -/
def volley : List Dto.Card :=
  ["a", "b", "c", "d", "e", "f", "g", "h", "i", "j"].map fun letter =>
    { bolt with code := s!"bolt-{letter}" }

def document (cards : List Dto.Card) : Dto.Set :=
  { schemaVersion := 1
    id := "study"
    revision := 1
    name := "Study"
    cards := cards }

/-- The id of one of its cards. -/
def cardId (code : String) : EntityId :=
  match EntityId.parse (newV5 Identity.idNamespace s!"set:study/card:{code}") with
  | .ok id => id
  | .error _ => ⟨Vector.replicate 16 0⟩

/-- The id of one of its Skills. -/
def skillId (card skill : String) : EntityId :=
  match EntityId.parse
      (newV5 Identity.idNamespace s!"set:study/card:{card}/ability:skill:{skill}") with
  | .ok id => id
  | .error _ => ⟨Vector.replicate 16 0⟩

/-- The Set the loader makes of some cards, and the library assembled from it alone. -/
def shelf (cards : List Dto.Card) : Option (LoadedSet × CardLibrary) :=
  match load newV5 (document cards) with
  | .ok l =>
      match CardLibrary.fromSets [l] with
      | .ok library => some (l, library)
      | .error _ => none
  | .error _ => none

theorem library_of_shelf {cards : List Dto.Card} {l : LoadedSet} {library : CardLibrary}
    (h : shelf cards = some (l, library)) :
    load newV5 (document cards) = .ok l ∧ CardLibrary.fromSets [l] = .ok library := by
  unfold shelf at h
  split at h
  · rename_i hl
    split at h
    · rename_i hlibrary
      cases h
      exact ⟨hl, hlibrary⟩
    · cases h
  · cases h

/-! ## A match with its cards -/

def card (instanceId : UInt32) (code : String) : CardRef := ⟨⟨instanceId⟩, cardId code⟩

/-- A Summon of one layer, Ready and undamaged. -/
def inPlay (instanceId : UInt32) (code : String) : ScenarioSummon :=
  ⟨[card instanceId code], 0, .ready⟩

/-- The set the loader makes of some cards, and a list of actions from a scenario over it with the trace
of all steps. -/
def trace (cards : List Dto.Card) (scenario : Scenario) (actions : List GameAction) :
    Option (LoadedSet × GameState × List (Entry GameState GameAction GameEvent) × GameState) :=
  match load newV5 (document cards) with
  | .ok l => (Fixtures.demoTrace l.cards scenario actions).map (fun r => (l, r))
  | .error _ => none

theorem run_of_trace {cards : List Dto.Card} {scenario : Scenario} {actions : List GameAction}
    {l : LoadedSet} {start t : GameState} {tr : List (Entry GameState GameAction GameEvent)}
    (h : trace cards scenario actions = some (l, start, tr, t)) :
    load newV5 (document cards) = .ok l ∧ fromScenario l.cards scenario = .ok start ∧
      engine.Run start tr t := by
  unfold trace at h
  split at h
  · rename_i hl
    obtain ⟨r, hr, heq⟩ := Option.map_eq_some_iff.mp h
    cases heq
    exact ⟨hl, Fixtures.run_of_demoTrace hr⟩
  · cases h

end Summoners.Specimen
