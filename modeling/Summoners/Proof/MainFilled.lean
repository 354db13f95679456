import Summoners.Proof.Roster

/-! # Main is filled in free play

A Main Summon that is destroyed leaves its position empty until the destruction that discarded it has
promoted another one. While the discards hit the player whose loss is recorded next, every empty
Main is one that the destruction under way, or the decision it asks for, will fill.
-/

namespace Summoners
set_option autoImplicit false

open Destruction Function RunToCompletion

/-- An empty Main is waiting for its promotion, `stranded` players apart. -/
def Manned (stranded : PlayerId → Prop) (r : Roster) (current : Current) : Prop :=
  ∀ p, r.main p = false → r.choice = some (.promotion p) ∨ stranded p ∨
    ∃ stage, current = some (p, stage) ∧
      (stage = .consequences ∨ stage = .verdict → ¬r.bench p)

/-- A player who starts without a Main Summon and without the promotion to put one there. -/
def Stranded (start : Roster) (p : PlayerId) : Prop :=
  start.main p = false ∧ start.choice ≠ some (.promotion p)

section
variable {stranded : PlayerId → Prop} {r r' : Roster} {current next : Current}
  {es : List GameEvent}

theorem manned_start (r : Roster) : Manned (Stranded r) r none := by
  intro p hp
  by_cases hchoice : r.choice = some (.promotion p)
  · exact .inl hchoice
  · exact .inr (.inl ⟨hp, hchoice⟩)

/-- With no destruction under way. -/
theorem Manned.idle (h : Manned stranded r none) {p : PlayerId} (hp : r.main p = false) :
    r.choice = some (.promotion p) ∨ stranded p := by
  rcases h p hp with hc | hx | ⟨stage, hcur, -⟩
  · exact .inl hc
  · exact .inr hx
  · cases hcur

/-- With a destruction of `p` under way and nobody asked. -/
theorem Manned.under {p : PlayerId} {stage : Stage} (h : Manned stranded r (some (p, stage)))
    (hchoice : r.choice = none) {q : PlayerId} (hq : r.main q = false) :
    stranded q ∨ (q = p ∧ (stage = .consequences ∨ stage = .verdict → ¬r.bench q)) := by
  rcases h q hq with hc | hx | ⟨stage', hcur, hbench⟩
  · rw [hchoice] at hc
    cases hc
  · exact .inl hx
  · cases hcur
    exact .inr ⟨rfl, hbench⟩

theorem Manned.fades (h : Manned stranded r current) (hf : r.Fades r') :
    Manned stranded r' current := by
  intro p hp
  rw [hf.main] at hp
  rw [hf.choice]
  rcases h p hp with hc | hx | ⟨stage, hcur, hbench⟩
  · exact .inl hc
  · exact .inr (.inl hx)
  · exact .inr (.inr ⟨stage, hcur, fun hs hb => hbench hs (hf.bench p hb)⟩)

/-- A step of the drain keeps every empty Main waited for, if a discard hits the player whose
destruction it begins. -/
theorem Manned.step (h : Manned stranded r current) (hs : MainStep r current r' next es)
    (hchoice : r.choice = none)
    (hown : ∀ p c, current = none → next = some (p, .loss) → es = [.summonDestroyed .main c] →
      c = p) : Manned stranded r' next := by
  cases hs with
  | aside hf _ => exact h.fades hf
  | @discarded p c hmain =>
      obtain rfl := hown p c rfl rfl rfl
      intro q (hq : update r.main c false q = false)
      by_cases hqc : q = c
      · subst hqc
        exact .inr (.inr ⟨.loss, rfl, fun hs => by rcases hs with hs | hs <;> cases hs⟩)
      · rw [update_of_ne hqc] at hq
        exact (h.idle hq).imp id .inl
  | missed =>
      intro q hq
      exact (h.idle hq).imp id .inl
  | @recorded p =>
      intro q hq
      rcases h.under hchoice hq with hx | ⟨rfl, -⟩
      · exact .inr (.inl hx)
      · exact .inr (.inr ⟨.prize, rfl, fun hs => by rcases hs with hs | hs <;> cases hs⟩)
  | @prizeless p hz =>
      intro q hq
      rcases h.under hchoice hq with hx | ⟨rfl, -⟩
      · exact .inr (.inl hx)
      · exact .inr (.inr ⟨.promote, rfl, fun hs => by rcases hs with hs | hs <;> cases hs⟩)
  | @prizeDue p hz =>
      intro q hq
      rcases h.under hchoice hq with hx | ⟨rfl, -⟩
      · exact .inr (.inl hx)
      · exact .inr (.inr ⟨.promote, rfl, fun hs => by rcases hs with hs | hs <;> cases hs⟩)
  | @unpromoted p hbench =>
      intro q hq
      rcases h.under hchoice hq with hx | ⟨rfl, -⟩
      · exact .inr (.inl hx)
      · exact .inr (.inr ⟨.consequences, rfl, fun _ => hbench⟩)
  | @promoted p slot benched =>
      intro q (hq : update r.main p true q = false)
      by_cases hqp : q = p
      · subst hqp
        rw [update_self] at hq
        cases hq
      · rw [update_of_ne hqp] at hq
        rcases h.under hchoice hq with hx | ⟨rfl, -⟩
        · exact .inr (.inl hx)
        · exact absurd rfl hqp
  | @promotionDue p =>
      intro q hq
      rcases h.under hchoice hq with hx | ⟨rfl, -⟩
      · exact .inr (.inl hx)
      · exact .inl rfl
  | @moved p =>
      intro q hq
      rcases h.under hchoice hq with hx | ⟨rfl, hbench⟩
      · exact .inr (.inl hx)
      · exact .inr (.inr ⟨.verdict, rfl, fun _ => hbench (.inl rfl)⟩)
  | @spared p hspared =>
      intro q hq
      rcases h.under hchoice hq with hx | ⟨rfl, hbench⟩
      · exact .inr (.inl hx)
      · rcases hspared with hm | hb
        · rw [hm] at hq
          cases hq
        · exact absurd hb (hbench (.inr rfl))

/-- And so does an action. -/
theorem Manned.answer (h : Manned stranded r current) (ha : Answer r current r' es) :
    Manned stranded r' current := by
  cases ha with
  | aside hf _ => exact h.fades hf
  | arrived bench _ =>
      intro q hq
      exact (h.idle hq).imp id .inl
  | @promoted _ p slot benched hchoice =>
      intro q (hq : update r.main p true q = false)
      by_cases hqp : q = p
      · subst hqp
        rw [update_self] at hq
        cases hq
      · rw [update_of_ne hqp] at hq
        rcases h q hq with hc | hx | ⟨stage, hcur, hbench⟩
        · rw [hchoice] at hc
          cases hc
          exact absurd rfl hqp
        · exact .inr (.inl hx)
        · refine .inr (.inr ⟨stage, hcur, fun hs => ?_⟩)
          show ¬update r.bench p benched q
          rw [update_of_ne hqp]
          exact hbench hs
  | recovered hchoice _ =>
      intro q hq
      rcases h q hq with hc | hx | hcur
      · rw [hchoice] at hc
        cases hc
      · exact .inr (.inl hx)
      · exact .inr (.inr hcur)

end

/-- Whether a step that discards a Main Summon discards the one of the player whose loss is recorded
next. -/
def discardsOwn (x : Entry GameState GameAction GameEvent) : Bool :=
  match x.input, nextWork x.before, destroyedController x.before .main with
  | none, some (.discardDestroyedChain .main), .ok (some c) =>
      x.before.work[1]? = some (.recordMainLoss c)
  | _, _, _ => true

theorem DestructionStep.controller {s t : GameState} {es : List GameEvent} {current next : Current}
    (hstep : DestructionStep s current t next es) (h : discardsOwn ⟨s, none, es⟩ = true)
    (p c : PlayerId) (hcur : current = none) (hnext : next = some (p, .loss))
    (hes : es = [.summonDestroyed .main c]) : c = p := by
  obtain ⟨hnw, hsecond, found, hfound, hevents⟩ := hstep.begun p hcur hnext
  cases found with
  | none =>
      rw [hes] at hevents
      cases hevents
  | some d =>
      rw [hes] at hevents
      cases hevents
      simp only [discardsOwn, hnw, hfound, hsecond, decide_eq_true_eq, Option.some.injEq] at h
      cases h
      rfl

theorem Opening.run_manned {cards : CardSet} {start s : GameState}
    {tr : List (Entry GameState GameAction GameEvent)} (h : Opening cards start)
    (hr : engine.Run start tr s) (hg : ∀ x ∈ tr, discardsOwn x = true)
    (hs : s.status = .playing) :
    ∃ current, Follows current s.work ∧ Manned (Stranded start.roster) s.roster current := by
  refine h.run_roster (G := fun x => discardsOwn x = true)
    (J := fun _ r current => Manned (Stranded start.roster) r current) (manned_start _)
    (fun hm ha => hm.answer ha) ?_ hr hg hs
  intro _ es s t current next hm hchoice hG hstep
  exact hm.step hstep.step hchoice (hstep.controller hG)

/-- A scenario with a Main Summon strands nobody. -/
theorem Opening.not_stranded {cards : CardSet} {start : GameState} (h : Opening cards start)
    {p : PlayerId} (hp : (start.player p).main ≠ none) (q : PlayerId) :
    ¬Stranded start.roster q := by
  rintro ⟨hq, hchoice⟩
  have hq : (start.player q).main = none := by simpa [GameState.roster] using hq
  apply hchoice
  have hpending : start.pending = some (.promotion q) := by
    rw [h.pending]
    unfold Scenario.derivePending
    have hone : start.players.one = start.player .one := rfl
    have htwo : start.players.two = start.player .two := rfl
    rw [hone, htwo]
    cases p <;> cases q <;> first | exact absurd hq hp | skip
    · have hsome : (start.player .one).main.isNone = false := by
        simpa [← Option.isSome_iff_ne_none] using hp
      simp [hsome, hq]
    · simp [hq]
  simp [GameState.roster, hpending, PendingInput.ofDestruction]

/-- **Main in free play.** From a scenario with a Main Summon, over steps that discard the Summon of
the player whose loss they record, neither Main is empty in free play. -/
theorem main_filled_in_free_play {cards : CardSet} {scenario : Scenario} {start s : GameState}
    {tr : List (Entry GameState GameAction GameEvent)} {p : PlayerId}
    (hstart : fromScenario cards scenario = .ok start) (hp : (start.player p).main ≠ none)
    (hr : engine.Run start tr s) (hown : ∀ x ∈ tr, discardsOwn x = true) (hfree : FreePlay s)
    (q : PlayerId) : (s.player q).main ≠ none := by
  have hopen := opening_of_fromScenario hstart
  obtain ⟨hs, hpending, -, hwork⟩ := hfree
  obtain ⟨current, hf, hm⟩ := hopen.run_manned hr hown hs
  rw [hwork] at hf
  obtain rfl := hf.eq_none
  intro hq
  have hmain : s.roster.main q = false := by simp [GameState.roster, hq]
  rcases hm.idle hmain with hc | hx
  · rw [roster_choice_of_none hpending] at hc
    cases hc
  · exact hopen.not_stranded hp q hx

open Fixtures in
/-- A scenario in which neither player has a Main Summon asks for one promotion only. And a discard
meant for Player One's Main hits the destroyed Summon Player Two has just promoted. -/
theorem main_not_filled_in_free_play :
    (∃ scenario start evs s, fromScenario striking scenario = .ok start ∧
      Reachable start evs s ∧ FreePlay s ∧ (s.player .two).main = none) ∧
    ∃ scenario start evs s, fromScenario striking scenario = .ok start ∧
      (∀ q, (start.player q).main ≠ none) ∧ Reachable start evs s ∧ FreePlay s ∧
        (s.player .two).main = none := by
  constructor
  · have hdemo : (demo striking (facing (leaderless (inPlay 1 1)) (leaderless (inPlay 2 1)))
        [.choosePromotion .one .first]).map (fun r =>
          decide (FreePlay r.2.1 ∧ (r.2.1.player .two).main = none)) = some true := by
      decide +kernel
    obtain ⟨⟨start, s, evs⟩, hr, hv⟩ := Option.map_eq_some_iff.mp hdemo
    obtain ⟨hstart, hreach⟩ := reachable_of_demo hr
    exact ⟨_, start, evs, s, hstart, hreach, of_decide_eq_true hv⟩
  · have hdemo : (demo striking
        (facing (lone ⟨[card 1 1], 10, .ready⟩)
          (benching (lone (inPlay 2 1)) .first ⟨[card 3 1], 10, .ready⟩)) attackPassPass).map
            (fun r => decide ((r.1.player .one).main ≠ none ∧ (r.1.player .two).main ≠ none ∧
              FreePlay r.2.1 ∧ (r.2.1.player .two).main = none)) = some true := by
      decide +kernel
    obtain ⟨⟨start, s, evs⟩, hr, hv⟩ := Option.map_eq_some_iff.mp hdemo
    obtain ⟨hone, htwo, hrest⟩ := of_decide_eq_true hv
    obtain ⟨hstart, hreach⟩ := reachable_of_demo hr
    refine ⟨_, start, evs, s, hstart, fun q => ?_, hreach, hrest⟩
    cases q
    · exact hone
    · exact htwo

open Fixtures in
/-- The Attack of two hits on a Main with one Summon behind it: the second chain finds nobody. -/
theorem main_filled_in_free_play_attack :
    ∃ start tr s, engine.Run start tr s ∧
      .summonDestroyed .main .two ∈ facts tr ∧ (s.player .two).main ≠ none := by
  have hdemo : (demoTrace twiceStriking (facing (lone (inPlay 1 1))
      (benching (lone (inPlay 2 1)) .first (inPlay 3 1))) attackPassPass).map (fun r =>
        decide ((r.1.player .one).main ≠ none ∧ (∀ x ∈ r.2.1, discardsOwn x = true) ∧
          .summonDestroyed .main .two ∈ facts r.2.1 ∧ FreePlay r.2.2)) = some true := by
    decide +kernel
  obtain ⟨⟨start, tr, s⟩, hr, hv⟩ := Option.map_eq_some_iff.mp hdemo
  obtain ⟨hmain, hown, hdestroyed, hfree⟩ := of_decide_eq_true hv
  obtain ⟨hstart, hrun⟩ := run_of_demoTrace hr
  exact ⟨start, tr, s, hrun, hdestroyed,
    main_filled_in_free_play hstart hmain hrun hown hfree .two⟩

end Summoners
