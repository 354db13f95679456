import Summoners.Scenario

/-! # Fixtures

The card builders of `domain/cards/fixtures.rs` and a small match around them, for the concrete
inputs the results below are tried on.
-/

namespace Summoners.Fixtures
set_option autoImplicit false

open RunToCompletion

/-- The id of a fixture's card (`ability` 0) or of one of its abilities. -/
def fid (card ability : UInt8) : EntityId :=
  ⟨#v[0, 0, 0, 0, 0, 0, 0, 0, 0, 0, 0, 0, 0, 0, card, ability]⟩

def attack (card : UInt8) (effects : List EffectLeaf) : Component :=
  .attack (.mk (fid card 1) (.cost .default :: effects.map .effect))

def skill (card : UInt8) (effects : List EffectLeaf) : Component :=
  .skill (.mk (fid card 2) (.cost .default :: effects.map .effect))

def trigger (card : UInt8) (event : TriggerEvent) (respondable : Bool)
    (effects : List EffectLeaf) : Component :=
  .trigger (.mk (fid card 3)
    (.event event :: (if respondable then [.respondable] else []) ++ effects.map .effect))

def summon (card : UInt8) (life : UInt32) (form : Form) (abilities : List Component)
    (produces : List ManaType) : Entity :=
  .mk (fid card 0) ([.life life, .produces produces, .retreatCost 0, .form form] ++ abilities)

def spell (card : UInt8) (timing : SpellTiming) (effects : List EffectLeaf) : Entity :=
  .mk (fid card 0) ([.tags ["spell"], .timing timing, .cost .default] ++ effects.map .effect)

/-- A plain hit. -/
def strike (amount : UInt32) : EffectLeaf := .dealDamage ⟨amount, .new, []⟩

/-! ## A small match -/

def card (instanceId : UInt32) (card : UInt8) : CardRef := ⟨⟨instanceId⟩, fid card 0⟩

/-- A Summon of one layer, Ready and undamaged. -/
def inPlay (instanceId : UInt32) (c : UInt8) : ScenarioSummon := ⟨[card instanceId c], 0, .ready⟩

/-- A player with one Summon in Main and nothing else. -/
def lone (main : ScenarioSummon) : ScenarioPlayer :=
  { deck := []
    hand := []
    prizes := []
    discard := []
    mana := ⟨0, 0, 0⟩
    mainLosses := 0
    main := some main
    bench := fun _ => none }

/-- The same player with one more Summon, on the Bench. -/
def benching (sp : ScenarioPlayer) (slot : BenchSlot) (summon : ScenarioSummon) : ScenarioPlayer :=
  { sp with bench := fun r => if r = slot then some summon else sp.bench r }

/-- The scenario with Player One to act and no Coin. -/
def facing (one two : ScenarioPlayer) : Scenario := ⟨⟨one, two⟩, .one, none⟩

/-- The state after a list of actions from a scenario, with all events. -/
def demo (cards : CardSet) (scenario : Scenario) (actions : List GameAction) :
    Option (GameState × GameState × List GameEvent) :=
  match fromScenario cards scenario with
  | .ok start => (play 60 start actions).map (fun r => (start, r))
  | .error _ => none

theorem reachable_of_demo {cards : CardSet} {scenario : Scenario} {actions : List GameAction}
    {start t : GameState} {evs : List GameEvent}
    (h : demo cards scenario actions = some (start, t, evs)) :
    fromScenario cards scenario = .ok start ∧ Reachable start evs t := by
  unfold demo at h
  split at h
  · rename_i hs
    obtain ⟨r, hr, heq⟩ := Option.map_eq_some_iff.mp h
    cases heq
    exact ⟨hs, reachable_of_play hr⟩
  · cases h

/-- The same with one more action, kept apart from the ones before it. -/
def demoStep (cards : CardSet) (scenario : Scenario) (actions : List GameAction)
    (action : GameAction) : Option (GameState × GameState × ActionOutcome) :=
  match demo cards scenario actions with
  | some (start, t, _) => (acceptedOutcome 60 t action).map (fun o => (start, t, o))
  | none => none

theorem accepted_of_demoStep {cards : CardSet} {scenario : Scenario} {actions : List GameAction}
    {action : GameAction} {start t : GameState} {o : ActionOutcome}
    (h : demoStep cards scenario actions action = some (start, t, o)) :
    fromScenario cards scenario = .ok start ∧ (∃ evs, Reachable start evs t) ∧
      Accepted t action o := by
  unfold demoStep at h
  split at h
  · rename_i hd
    obtain ⟨o', ho, heq⟩ := Option.map_eq_some_iff.mp h
    cases heq
    obtain ⟨hs, hr⟩ := reachable_of_demo hd
    exact ⟨hs, ⟨_, hr⟩, accepted_of_acceptedOutcome ho⟩
  · cases h

/-- The same match with the trace of its steps. -/
def demoTrace (cards : CardSet) (scenario : Scenario) (actions : List GameAction) :
    Option (GameState × List (Entry GameState GameAction GameEvent) × GameState) :=
  match fromScenario cards scenario with
  | .ok start => (engine.replay 60 start actions).map (fun r => (start, r))
  | .error _ => none

theorem run_of_demoTrace {cards : CardSet} {scenario : Scenario} {actions : List GameAction}
    {start t : GameState} {tr : List (Entry GameState GameAction GameEvent)}
    (h : demoTrace cards scenario actions = some (start, tr, t)) :
    fromScenario cards scenario = .ok start ∧ engine.Run start tr t := by
  unfold demoTrace at h
  split at h
  · rename_i hs
    obtain ⟨r, hr, heq⟩ := Option.map_eq_some_iff.mp h
    cases heq
    exact ⟨hs, Machine.run_of_replay hr⟩
  · cases h

/-- A player whose only Summon is benched. -/
def leaderless (summon : ScenarioSummon) : ScenarioPlayer :=
  { benching (lone summon) .first summon with main := none }

/-! ## Attacks -/

/-- A Summon of 10 Life whose Attack hits for 10. -/
def striking : CardSet := ⟨[summon 1 10 .base [attack 1 [strike 10]] [.matter]]⟩

/-- A Summon of 10 Life whose Attack hits for 10 twice. -/
def twiceStriking : CardSet :=
  ⟨[summon 1 10 .base [attack 1 [strike 10, strike 10]] [.matter]]⟩

/-- Player Two with a full Main and two Summons on the Bench. -/
def twiceStruck : Scenario :=
  facing (lone (inPlay 1 1))
    (benching (benching (lone (inPlay 2 1)) .first (inPlay 3 1)) .second (inPlay 4 1))

/-- Player One attacks, both pass. -/
def attackPassPass : List GameAction :=
  [.declareAttack .one .main none, .passPriority .two, .passPriority .one]

/-! ## A mark -/

/-- Two Summons that attack, and Player Two's Spell in hand. -/
def answered (spellCard : UInt8) : Scenario :=
  facing (lone (inPlay 1 1)) { lone (inPlay 2 1) with hand := [card 3 spellCard] }

/-- Player One attacks, Player Two answers with the Spell, both pass. -/
def answer : List GameAction :=
  [.declareAttack .one .main none, .castSpell .two ⟨3⟩ [.main] none, .passPriority .one,
    .passPriority .two]

/-- The striking Summon, an Attack Spell that hits for 10 and a Spell that readies. -/
def answers : CardSet :=
  ⟨striking.entities ++ [spell 2 .attack [strike 10], spell 3 .support [.readySummon]]⟩

end Summoners.Fixtures
