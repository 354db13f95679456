import Summoners.Scenario
import Summoners.Steps.Items

/-! # What `from_scenario` produces -/

namespace Summoners
set_option autoImplicit false

open Scenario

/-- A state as a parsed scenario starts: quiescent, with at most the promotion an empty Main leaves
pending. -/
structure Opening (cards : CardSet) (s : GameState) : Prop where
  window : s.turn.window = none
  phase : s.turn.phase = .main
  stack : s.stack = []
  bases : s.stackSegmentBases = []
  work : s.work = []
  pending : s.pending = derivePending s.players
  status : s.status = .playing
  cards : s.cards = cards
  owner : ∀ q p x, (s.player q).summonAt p = some x → x.owner = q ∧ x.controller = q
  inPlay : ∀ q, ∃ p, (s.player q).summonAt p ≠ none

/-- What a scenario describes at one position. -/
def ScenarioPlayer.describedAt (sp : ScenarioPlayer) : Position → Option ScenarioSummon
  | .main => sp.main
  | .bench slot => sp.bench slot

/-- A described Summon keeps its cards, its damage and its readiness. -/
theorem buildAt_ok {cards : CardSet} {player : PlayerId} {p : Position}
    {summon : Option ScenarioSummon} {r : Option SummonInstance}
    (h : buildAt cards player p summon = .ok r) :
    r.map (fun x => (x.chain.layers, x.damage, x.readiness)) =
      summon.map (fun x => (x.chain, x.damage, x.readiness)) := by
  cases summon with
  | none => cases h; rfl
  | some summon =>
      simp only [buildAt, buildSummonInstance] at h
      split at h
      · cases h
      · rename_i chain hchain
        cases h
        have hlayers : chain.layers = summon.chain := by
          unfold buildChain at hchain
          split at hchain
          · cases hchain
          · rename_i hbase
            split at hchain
            · cases hchain
            · split at hchain
              · cases hchain
              · cases hchain
                rw [hbase]
                rfl
        simp [hlayers]

theorem buildAt_owner {cards : CardSet} {player : PlayerId} {p : Position}
    {summon : Option ScenarioSummon} {r : Option SummonInstance} {x : SummonInstance}
    (h : buildAt cards player p summon = .ok r) (hx : r = some x) :
    x.owner = player ∧ x.controller = player := by
  cases summon with
  | none => cases h; cases hx
  | some summon =>
      simp only [buildAt, buildSummonInstance] at h
      split at h
      · cases h
      · cases h
        cases hx
        exact ⟨rfl, rfl⟩

/-- The parts of an accepted player. -/
theorem buildPlayerState_ok {cards : CardSet} {player : PlayerId} {sp : ScenarioPlayer}
    {ps : PlayerState} (h : buildPlayerState cards player sp = .ok ps) :
    (∀ p, buildAt cards player p (sp.describedAt p) = .ok (ps.summonAt p)) ∧
      (∃ p, ps.summonAt p ≠ none) ∧ ps.deck = sp.deck ∧ ps.hand = sp.hand ∧
      ps.prizes = sp.prizes ∧ ps.discard = sp.discard ∧ ps.enchantments = [] ∧
      ps.mainLosses = sp.mainLosses := by
  unfold buildPlayerState at h
  cases hm : buildAt cards player .main sp.main with
  | error e => simp [hm, bind, Except.bind] at h
  | ok main =>
    cases h1 : buildAt cards player (.bench .first) (sp.bench .first) with
    | error e => simp [hm, h1, bind, Except.bind] at h
    | ok first =>
      cases h2 : buildAt cards player (.bench .second) (sp.bench .second) with
      | error e => simp [hm, h1, h2, bind, Except.bind] at h
      | ok second =>
        cases h3 : buildAt cards player (.bench .third) (sp.bench .third) with
        | error e => simp [hm, h1, h2, h3, bind, Except.bind] at h
        | ok third =>
          simp only [hm, h1, h2, h3, bind, Except.bind] at h
          split at h
          · cases h
          · rename_i hne
            cases h
            refine ⟨fun p => ?_, ?_, rfl, rfl, rfl, rfl, rfl, rfl⟩
            · rcases p with _ | slot
              · exact hm
              · cases slot
                · exact h1
                · exact h2
                · exact h3
            · by_contra hn
              simp only [not_exists, ne_eq, not_not] at hn
              have e0 := hn .main
              have e1 := hn (.bench .first)
              have e2 := hn (.bench .second)
              have e3 := hn (.bench .third)
              simp only [PlayerState.summonAt_main, PlayerState.summonAt_bench, Bench.get] at e0 e1 e2 e3
              exact hne (by simp [e0, e1, e2, e3])

theorem fromScenario_parts {cards : CardSet} {scenario : Scenario} {s : GameState}
    (h : fromScenario cards scenario = .ok s) :
    checkNoDuplicateInstances scenario = .ok () ∧ checkEveryDefKnown cards scenario = .ok () ∧
      (∀ q, buildPlayerState cards q (scenario.players.get q) = .ok (s.player q)) ∧
      s = { players := s.players
            coin := scenario.coin
            turn :=
              { activePlayer := scenario.activePlayer
                phase := .main
                window := none
                normalAttackUsed := false
                normalRetreatUsed := false
                spellPlayedThisTurn := ⟨false, false⟩ }
            stack := []
            stackSegmentBases := []
            work := []
            pending := derivePending s.players
            status := .playing
            cards := cards } := by
  unfold fromScenario at h
  cases hd : checkNoDuplicateInstances scenario with
  | error e => simp [hd, bind, Except.bind] at h
  | ok u =>
    cases hk : checkEveryDefKnown cards scenario with
    | error e => simp [hd, hk, bind, Except.bind] at h
    | ok v =>
      cases h1 : buildPlayerState cards .one scenario.players.one with
      | error e => simp [hd, hk, h1, bind, Except.bind] at h
      | ok one =>
        cases h2 : buildPlayerState cards .two scenario.players.two with
        | error e => simp [hd, hk, h1, h2, bind, Except.bind] at h
        | ok two =>
          simp only [hd, hk, h1, h2, bind, Except.bind, Except.ok.injEq] at h
          subst h
          refine ⟨rfl, rfl, fun q => ?_, rfl⟩
          cases q
          · exact h1
          · exact h2

/-- **A parsed scenario is an opening.** -/
theorem opening_of_fromScenario {cards : CardSet} {scenario : Scenario} {s : GameState}
    (h : fromScenario cards scenario = .ok s) : Opening cards s := by
  obtain ⟨-, -, hplayers, hs⟩ := fromScenario_parts h
  have howner : ∀ q p x, (s.player q).summonAt p = some x → x.owner = q ∧ x.controller = q := by
    intro q p x hx
    exact buildAt_owner ((buildPlayerState_ok (hplayers q)).1 p) hx
  have hinPlay : ∀ q, ∃ p, (s.player q).summonAt p ≠ none :=
    fun q => (buildPlayerState_ok (hplayers q)).2.1
  constructor <;> first | assumption | (rw [hs])

/-- An opening is at rest. -/
theorem Opening.rest {cards : CardSet} {s : GameState} (h : Opening cards s) :
    engine.next s = none := by
  show Resolution.drainStep s = none
  unfold Resolution.drainStep
  split
  · rfl
  · simp [h.window, Resolution.stackHasUnresolvedItems, h.stack, h.work]

end Summoners
