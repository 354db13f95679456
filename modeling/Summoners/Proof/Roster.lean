import Mathlib.Logic.Function.Basic
import Summoners.Proof.Agenda
import Summoners.Proof.Rest
import Summoners.Steps.Boards

/-! # Main destruction, seen abstractly

A `Roster` keeps of a match what the destruction of a Main Summon is about. `MainStep` is a step of
the drain at that level, driven by the destruction under way, and `Answer` is an action; the engine
refines them (`drainStep_roster`, `ActionStep.answer`).
-/

namespace Summoners
set_option autoImplicit false

open Effects Destruction Function RunToCompletion

@[ext] structure Roster where
  main : PlayerId → Bool
  bench : PlayerId → Prop
  prizes : PlayerId → ℕ
  losses : PlayerId → UInt8
  choice : Option PendingInput

/-- The decisions a destruction asks for. -/
def PendingInput.ofDestruction : PendingInput → Bool
  | .manaProduction _ _ => false
  | .promotion _ | .prizePick _ => true

/-- The facts a destruction in Main is counted by. -/
def GameEvent.ofMainDestruction : GameEvent → Bool
  | .summonDestroyed .main _ | .summonPromoted _ _ | .prizeRecovered _ _ => true
  | _ => false

/-- None of these facts. -/
def Quiet (es : List GameEvent) : Prop := ∀ e ∈ es, e.ofMainDestruction = false

@[simp] theorem quiet_nil : Quiet [] := by simp [Quiet]

@[simp] theorem quiet_cons {e : GameEvent} {es : List GameEvent} :
    Quiet (e :: es) ↔ e.ofMainDestruction = false ∧ Quiet es := by simp [Quiet]

@[simp] theorem quiet_append {es es' : List GameEvent} :
    Quiet (es ++ es') ↔ Quiet es ∧ Quiet es' := by simp [Quiet, or_imp, forall_and]

theorem Minor.quiet {es : List GameEvent} (h : Minor es) : Quiet es := by
  intro e he
  have hm := h e he
  cases e <;> first | rfl | cases hm

@[simp] theorem quiet_payment (payment : Payment) (c : PlayerId) : Quiet (payment.events c) := by
  intro e he
  simp only [Payment.events, List.mem_map] at he
  obtain ⟨_, _, rfl⟩ := he
  rfl

/-- What a state says of the two Main positions and what a loss of one costs. -/
def GameState.roster (s : GameState) : Roster where
  main q := (s.player q).main.isSome
  bench q := (s.player q).benched
  prizes q := (s.player q).prizes.length
  losses q := (s.player q).mainLosses
  choice := s.pending.filter PendingInput.ofDestruction

/-- Steps that are no part of a Main destruction: nothing but the Bench may shrink. -/
structure Roster.Fades (r r' : Roster) : Prop where
  main : r'.main = r.main
  bench : ∀ q, r'.bench q → r.bench q
  prizes : r'.prizes = r.prizes
  losses : r'.losses = r.losses
  choice : r'.choice = r.choice

/-- A step of the drain. -/
inductive MainStep : Roster → Current → Roster → Current → List GameEvent → Prop
  | aside {r r' : Roster} {current : Current} {es : List GameEvent} (h : r.Fades r')
      (quiet : Quiet es) : MainStep r current r' current es
  | discarded {r : Roster} {p c : PlayerId} (hmain : r.main c = true) :
      MainStep r none { r with main := update r.main c false } (some (p, .loss))
        [.summonDestroyed .main c]
  | missed {r : Roster} {p : PlayerId} : MainStep r none r (some (p, .loss)) []
  | recorded {r : Roster} {p : PlayerId} :
      MainStep r (some (p, .loss)) { r with losses := update r.losses p (r.losses p + 1) }
        (some (p, .prize)) []
  | prizeless {r : Roster} {p : PlayerId} (h : r.prizes p = 0) :
      MainStep r (some (p, .prize)) r (some (p, .promote)) []
  | prizeDue {r : Roster} {p : PlayerId} (h : r.prizes p ≠ 0) :
      MainStep r (some (p, .prize)) { r with choice := some (.prizePick p.opponent) }
        (some (p, .promote)) []
  | unpromoted {r : Roster} {p : PlayerId} (h : ¬r.bench p) :
      MainStep r (some (p, .promote)) r (some (p, .consequences)) []
  | promoted {r : Roster} {p : PlayerId} {slot : BenchSlot} (benched : Prop) :
      MainStep r (some (p, .promote))
        { r with main := update r.main p true, bench := update r.bench p benched }
        (some (p, .consequences)) [.summonPromoted p slot]
  | promotionDue {r : Roster} {p : PlayerId} :
      MainStep r (some (p, .promote)) { r with choice := some (.promotion p) }
        (some (p, .consequences)) []
  | moved {r : Roster} {p : PlayerId} :
      MainStep r (some (p, .consequences)) r (some (p, .verdict)) []
  | spared {r : Roster} {p : PlayerId} (h : r.main p = true ∨ r.bench p) :
      MainStep r (some (p, .verdict)) r none []

/-- An action, with the destruction under way while it is taken. -/
inductive Answer : Roster → Current → Roster → List GameEvent → Prop
  | aside {r r' : Roster} {current : Current} {es : List GameEvent} (h : r.Fades r')
      (quiet : Quiet es) : Answer r current r' es
  | arrived {r : Roster} {es : List GameEvent} (bench : PlayerId → Prop) (quiet : Quiet es) :
      Answer r none { r with bench := bench } es
  | promoted {r : Roster} {current : Current} {p : PlayerId} {slot : BenchSlot}
      (benched : Prop) (hchoice : r.choice = some (.promotion p)) :
      Answer r current
        { r with
          main := update r.main p true
          bench := update r.bench p benched
          choice := none }
        [.summonPromoted p slot]
  | recovered {r : Roster} {current : Current} {p : PlayerId} {card : CardInstanceId}
      (hchoice : r.choice = some (.prizePick p.opponent)) (hp : r.prizes p ≠ 0) :
      Answer r current
        { r with prizes := update r.prizes p (r.prizes p - 1), choice := none }
        [.prizeRecovered p card]

namespace Roster.Fades
variable {s t : GameState} {r r' r'' : Roster}

theorem refl (r : Roster) : r.Fades r := ⟨rfl, fun _ => id, rfl, rfl, rfl⟩

theorem trans (h : r.Fades r') (h' : r'.Fades r'') : r.Fades r'' :=
  ⟨h'.main.trans h.main, fun q hq => h.bench q (h'.bench q hq), h'.prizes.trans h.prizes,
    h'.losses.trans h.losses, h'.choice.trans h.choice⟩

theorem of_players (h : ∀ q, PlayerFrame (s.player q) (t.player q))
    (hchoice : t.roster.choice = s.roster.choice) : s.roster.Fades t.roster where
  main := funext fun q => (h q).main
  bench q := (h q).benched.mp
  prizes := funext fun q => congrArg List.length (h q).prizes
  losses := funext fun q => (h q).mainLosses
  choice := hchoice

end Roster.Fades

section
variable {s t u : GameState} {es : List GameEvent} {current : Current}

theorem roster_choice_of_none (h : s.pending = none) : s.roster.choice = none := by
  simp [GameState.roster, h]

theorem roster_choice_of_mana {c : PlayerId} {source : ManaSource}
    (h : s.pending = some (.manaProduction c source)) : s.roster.choice = none := by
  simp [GameState.roster, h, PendingInput.ofDestruction]

/-! ## Leaves -/

theorem LeafFrame.fades (h : LeafFrame s t) (hp : s.pending = none) :
    s.roster.Fades t.roster := by
  refine .of_players (fun q => ⟨h.main q, h.benched q, h.prizes q, h.mainLosses q⟩) ?_
  rw [roster_choice_of_none hp]
  rcases h.pending with heq | ⟨c, p, heq⟩
  · exact roster_choice_of_none (heq.trans hp)
  · exact roster_choice_of_mana heq

theorem applyLeaves_quiet {source : EffectSource} {targets : List Position}
    {leaves : List EffectLeaf} (h : applyLeaves s source targets leaves = (t, es))
    (hs : s.status = .playing) : Quiet es := by
  refine applyLeaves_rel (R := fun _ es _ => Quiet es) h hs (fun _ => quiet_nil)
    (fun _ h h' => quiet_append.mpr ⟨h, h'⟩) (fun {_ _ _ _} _ _ h => ?_)
  cases h with
  | quiet hm | touched _ _ _ hm | hit _ _ hm | zones _ hm => exact hm.quiet
  | drewOut _ hm => exact quiet_append.mpr ⟨hm.quiet, by simp [GameEvent.ofMainDestruction]⟩
  | moved _ _ => exact quiet_nil
  | exchanged _ _ => simp [GameEvent.ofMainDestruction]
  | produced _ => simp [GameEvent.ofMainDestruction]
  | paused _ => exact quiet_nil

/-! ## Work items -/

theorem map_frame (ps : PlayerState) (f : SummonInstance → SummonInstance) :
    PlayerFrame ps { ps with main := ps.main.map f, bench := ps.bench.mapSummons f } := by
  refine ⟨by simp, ?_, rfl, rfl⟩
  simp [PlayerState.benched]

theorem zones_frame {ps qs : PlayerState} (hmain : qs.main = ps.main) (hbench : qs.bench = ps.bench)
    (hprizes : qs.prizes = ps.prizes) (hlosses : qs.mainLosses = ps.mainLosses) :
    PlayerFrame ps qs := by
  refine ⟨by rw [hmain], ?_, hprizes, hlosses⟩
  unfold PlayerState.benched
  rw [hbench]

/-- A frame for the one player written is one for both. -/
theorem PlayerFrame.write {c : PlayerId} {ps : PlayerState} (h : PlayerFrame (s.player c) ps)
    (q : PlayerId) : PlayerFrame (s.player q) ((s.setPlayer c ps).player q) := by
  rw [GameState.player_setPlayer]
  split
  · rename_i hq
    rw [hq]
    exact h
  · exact .refl _

theorem markMainEntry_player (s : GameState) (step : MovementStep) (c : PlayerId) (p : Position)
    (q : PlayerId) :
    PlayerFrame (s.player q) ((Triggers.markMainEntry s step c p).player q) := by
  unfold Triggers.markMainEntry
  split
  · rename_i x hx
    have hentered (y : SummonInstance) :
        PlayerFrame (s.player c) { s.player c with main := some y } :=
      ⟨by simp [hx], .rfl, rfl, rfl⟩
    exact (hentered _).write q
  · exact .refl _

/-- Items that are no step of a Main destruction leave the roster as it is, but for the Bench. -/
theorem ItemStep.fades {item : WorkItem} (h : ItemStep s item t es) (hs : s.status = .playing)
    (hp : s.pending = none) (hitem : item.isUrgent = true ∨ item.isLoose = true) :
    s.roster.Fades t.roster ∧ Quiet es := by
  cases h with
  | readied =>
      exact ⟨.of_players (PlayerFrame.write (map_frame _ _)) rfl, by
        simp [Upkeep.readyAll, GameEvent.ofMainDestruction]⟩
  | drew _ =>
      exact ⟨.of_players (PlayerFrame.write (zones_frame rfl rfl rfl rfl)) rfl, by
        simp [GameEvent.ofMainDestruction]⟩
  | produced _ =>
      exact ⟨.of_players (PlayerFrame.write (bank_frame _ _)) rfl, by
        simp [GameEvent.ofMainDestruction]⟩
  | @paused c source _ _ _ _ =>
      refine ⟨.of_players (fun _ => .refl _) ?_, quiet_nil⟩
      rw [roster_choice_of_none hp]
      exact roster_choice_of_mana rfl
  | @discarded p c x hc hx =>
      cases p with
      | main => simp [WorkItem.isUrgent, WorkItem.isLoose] at hitem
      | bench slot =>
          refine ⟨?_, by simp [GameEvent.ofMainDestruction]⟩
          have hplayer : ∀ q, (Triggers.discoverFront (discardSummon s c (.bench slot) x)
              (orderedPlayers s) .anySummonDestroyed).player q =
                (discardSummon s c (.bench slot) x).player q := fun _ => rfl
          refine ⟨?_, ?_, ?_, ?_, rfl⟩
          · funext q
            simp only [GameState.roster, hplayer, discardSummon_player]
            split <;> rfl
          · intro q
            simp only [GameState.roster, hplayer, discardSummon_player]
            split
            · rintro ⟨r, hr⟩
              refine ⟨r, fun hn => hr ?_⟩
              by_cases hrs : r = slot
              · subst hrs
                simp [PlayerState.setAt]
              · simpa [PlayerState.setAt, Bench.get_set_of_ne _ hrs] using hn
            · exact id
          · funext q
            simp only [GameState.roster, hplayer, discardSummon_player]
            split <;> rfl
          · funext q
            simp only [GameState.roster, hplayer, discardSummon_player]
            split <;> rfl
  | lossRecorded | prizeDue _ | promoted _ _ | promotionDue _ =>
      simp [WorkItem.isUrgent, WorkItem.isLoose] at hitem
  | @movement step c p =>
      refine ⟨.of_players (markMainEntry_player s step c p) ?_, quiet_nil⟩
      obtain ⟨-, -, -, -, hpending, -, -⟩ := markMainEntry_frame s step c p
      simp only [GameState.roster, GameState.pushFront_pending, hpending]
  | fired _ hl =>
      exact ⟨(applyLeaves_frame hl hs).fades hp, quiet_cons.mpr ⟨rfl, applyLeaves_quiet hl hs⟩⟩
  | opened _ | lost _ | deckEmpty =>
      exact ⟨.of_players (fun _ => .refl _) rfl, by simp [GameEvent.ofMainDestruction]⟩
  | _ => exact ⟨.of_players (fun _ => .refl _) rfl, quiet_nil⟩

/-! ## The drain refines the abstract steps -/

/-- What an iteration does to the destruction under way. `begun` says what a destruction begins
with: the discard of whoever is found destroyed, with its loss recorded next for `p`. -/
structure DestructionStep (s : GameState) (current : Current) (t : GameState) (next : Current)
    (es : List GameEvent) : Prop where
  follows : Follows next t.work
  step : MainStep s.roster current t.roster next es
  begun : ∀ p, current = none → next = some (p, .loss) →
    nextWork s = some (.discardDestroyedChain .main) ∧ s.work[1]? = some (.recordMainLoss p) ∧
      ∃ found, destroyedController s .main = .ok found ∧
        es = (found.map (GameEvent.summonDestroyed .main)).toList
  recording : ∀ p, current = some (p, .loss) → next = some (p, .prize) →
    nextWork s = some (.recordMainLoss p)

theorem roster_discarded {c : PlayerId} {x : SummonInstance} :
    (discardSummon s c .main x).roster =
      { s.roster with main := update s.roster.main c false } := by
  have hmain : (discardSummon s c .main x).roster.main = update s.roster.main c false := by
    funext q
    simp only [GameState.roster, discardSummon_player, update_apply]
    split <;> simp [PlayerState.setAt]
  have hbench : (discardSummon s c .main x).roster.bench = s.roster.bench := by
    funext q
    simp only [GameState.roster, discardSummon_player]
    split <;> rfl
  have hprizes : (discardSummon s c .main x).roster.prizes = s.roster.prizes := by
    funext q
    simp only [GameState.roster, discardSummon_player]
    split <;> simp
  have hlosses : (discardSummon s c .main x).roster.losses = s.roster.losses := by
    funext q
    simp only [GameState.roster, discardSummon_player]
    split <;> simp
  have hchoice : (discardSummon s c .main x).roster.choice = s.roster.choice := rfl
  exact Roster.ext hmain hbench hprizes hlosses hchoice

theorem roster_setPlayer {c : PlayerId} {ps : PlayerState} :
    (s.setPlayer c ps).roster =
      { main := update s.roster.main c ps.main.isSome
        bench := update s.roster.bench c ps.benched
        prizes := update s.roster.prizes c ps.prizes.length
        losses := update s.roster.losses c ps.mainLosses
        choice := s.roster.choice } := by
  simp only [GameState.roster, GameState.setPlayer_pending, Roster.mk.injEq]
  refine ⟨?_, ?_, ?_, ?_, trivial⟩ <;> funext q <;> rw [GameState.player_setPlayer, update_apply] <;>
    split <;> rfl

/-- What follows the front of an agenda is a step of the abstract machine. -/
theorem mainStep_of_pops {item : WorkItem} {next : Current} (ho : Owned s)
    (hs : s.status = .playing) (hp : s.pending = none) (hpops : Pops current item next)
    (hi : ItemStep s item t es) (ht : t.status = .playing) :
    MainStep s.roster current t.roster next es := by
  cases hpops with
  | urgent hu =>
      obtain ⟨hfades, hquiet⟩ := hi.fades hs hp (.inl hu)
      exact .aside hfades hquiet
  | loose hl =>
      obtain ⟨hfades, hquiet⟩ := hi.fades hs hp (.inr hl)
      exact .aside hfades hquiet
  | chain =>
      cases hi with
      | discardBroke _ => cases ht
      | discardMissed _ => exact .missed
      | @discarded _ c x hc hx =>
          have howner : x.owner = c := (ho c .main x hx).1
          have hmain : s.roster.main c = true := by
            rw [PlayerState.summonAt_main] at hx
            simp [GameState.roster, hx]
          have hroster : (Triggers.discoverFront (discardSummon s c .main x) (orderedPlayers s)
              .anySummonDestroyed).roster = (discardSummon s c .main x).roster := rfl
          rw [hroster, roster_discarded, howner]
          exact .discarded hmain
  | @loss p =>
      cases hi with
      | lossRecorded =>
          rw [roster_setPlayer]
          have h := MainStep.recorded (r := s.roster) (p := p)
          simpa [GameState.roster, PlayerState.benched] using h
  | @prize p =>
      cases hi with
      | prizeless hz => exact .prizeless (by simp [GameState.roster, hz])
      | prizeDue hz =>
          have hne : s.roster.prizes p ≠ 0 := by simpa [GameState.roster] using hz
          exact .prizeDue hne
  | @promote p =>
      cases hi with
      | promoteNone hb =>
          refine .unpromoted (fun hbench => ?_)
          obtain ⟨slot, hslot⟩ := hbench
          have hmem : slot ∈ occupiedBenchSlots (s.player p) :=
            mem_occupiedBenchSlots.mpr (Option.isSome_iff_ne_none.mpr hslot)
          rw [hb] at hmem
          cases hmem
      | @promoted _ slot x hb hx =>
          rw [roster_setPlayer]
          have h : MainStep s.roster (some (p, .promote)) _ _ [.summonPromoted p slot] :=
            .promoted
              ({ s.player p with bench := (s.player p).bench.set slot none } : PlayerState).benched
          simpa [GameState.roster, PlayerState.benched] using h
      | promotionDue hb => exact .promotionDue
  | consequences =>
      cases hi with
      | consequences _ => exact .moved
      | noConsequences _ => exact .moved
  | @verdict p =>
      cases hi with
      | lost _ => cases ht
      | spared _ hb =>
          refine .spared (hb.imp (fun h => ?_) id)
          simpa [GameState.roster, Option.isSome_iff_ne_none] using h

theorem drainStep_roster (ho : Owned s) (hf : Follows current s.work)
    (h : Resolution.drainStep s = some (t, es)) (ht : t.status = .playing) :
    ∃ next, DestructionStep s current t next es := by
  obtain ⟨hd, ⟨hnone, hnext, item, u, es', hst, rfl⟩ |
    ⟨item, work, next, hnw, hwork, hpops, hnext, hi, hhead⟩⟩ := drainStep_agenda hf h
  · have hleaves := (applyLeaves_frame hst.leaves hd.playing).fades hd.pending
    refine ⟨current, hnext, .aside ?_ ?_, fun p hn he => ?_, fun p hn he => ?_⟩
    · refine hleaves.trans (.of_players (fun q => ?_) ?_)
      · rw [hst.result, closeSegment_player]
        rcases placeItem_player u item q with h | ⟨_, _, _, _, _, h | h⟩ <;> rw [h]
        · exact .refl _
        · exact zones_frame rfl rfl rfl rfl
        · exact zones_frame rfl rfl rfl rfl
      · rw [hst.result]
        simp only [GameState.roster, closeSegment_pending, placeItem_pending]
    · exact quiet_cons.mpr ⟨rfl, applyLeaves_quiet hst.leaves hd.playing⟩
    · rw [hn] at he
      cases he
    · rw [hn] at he
      cases he
  · refine ⟨next, hnext, ?_, fun p hn he => ?_, fun p hn he => ?_⟩
    · have hstep := mainStep_of_pops (s := poppedWork s work) ho hd.playing hd.pending hpops hi ht
      exact hstep
    · subst hn he
      cases hpops with
      | chain =>
          refine ⟨hnw, ?_, ?_⟩
          · rw [hwork, List.getElem?_cons_succ, ← List.head?_eq_getElem?]
            exact hhead p rfl rfl
          · cases hi with
            | discardBroke _ => cases ht
            | discardMissed hm => exact ⟨none, hm, rfl⟩
            | @discarded _ c x hc hx =>
                have howner : x.owner = c := (ho c .main x hx).1
                exact ⟨some c, hc, by rw [howner]; rfl⟩
    · subst hn he
      cases hpops with
      | loss => exact hnw

/-! ## So do the actions -/

/-- A Summon replaced where it stands, the hand and the Mana aside. -/
theorem setAt_frame {ps qs : PlayerState} {p : Position} {x y : SummonInstance}
    (hx : ps.summonAt p = some x) (hmain : qs.main = ps.main) (hbench : qs.bench = ps.bench)
    (hprizes : qs.prizes = ps.prizes) (hlosses : qs.mainLosses = ps.mainLosses) :
    PlayerFrame ps (qs.setAt p (some y)) := by
  have hqs : qs.summonAt p = some x := by
    cases p with
    | main => rwa [PlayerState.summonAt_main, hmain]
    | bench slot => rwa [PlayerState.summonAt_bench, hbench]
  have hfirst := zones_frame hmain hbench hprizes hlosses
  have hthen := PlayerFrame.setAt hqs y
  exact ⟨hthen.main.trans hfirst.main, hthen.benched.trans hfirst.benched,
    hthen.prizes.trans hfirst.prizes, hthen.mainLosses.trans hfirst.mainLosses⟩

theorem exchange_frame {ps : PlayerState} {slot : BenchSlot} {x y : SummonInstance}
    (hmain : ps.main = some x) (hbench : ps.bench.get slot = some y) (mana : ManaBank) :
    PlayerFrame ps (exchange { ps with mana := mana } slot x y) := by
  refine ⟨by simp [exchange, hmain], ⟨fun _ => ⟨slot, by simp [hbench]⟩, fun _ => ⟨slot, ?_⟩⟩, rfl,
    rfl⟩
  simp [exchange]

/-- **An action refines an answer.** Where no decision is pending and no window is open, no
destruction is under way. -/
theorem ActionStep.answer {a : GameAction} (h : ActionStep s a t es) (hs : s.status = .playing)
    (hidle : FreeMain s → current = none) : Answer s.roster current t.roster es := by
  cases h with
  | @played c card slot cardRef hand entity free _ _ _ _ _ =>
      obtain rfl := hidle free
      rw [roster_setPlayer]
      have h : Answer s.roster none _ [.summonPlayed c card slot] :=
        .arrived (update s.roster.bench c ({ s.player c with
          bench := (s.player c).bench.set slot (some (Board.enteringSummon c cardRef)) } :
            PlayerState).benched) (by simp [GameEvent.ofMainDestruction])
      simpa [GameState.roster, PlayerState.benched] using h
  | upgraded _ hx _ _ _ _ _ _ _ _ =>
      exact .aside (.of_players (PlayerFrame.write (setAt_frame hx rfl rfl rfl rfl)) rfl)
        (by simp [GameEvent.ofMainDestruction])
  | @cast c card targets hint cardRef hand _ _ _ payment _ _ _ _ _ _ =>
      have hpaid : PlayerFrame (s.player c) { s.player c with mana := payment.bank, hand := hand } :=
        zones_frame rfl rfl rfl rfl
      refine .aside (.of_players (fun q => ?_) rfl) (by simp [GameEvent.ofMainDestruction])
      exact PlayerFrame.write (s := castBegun s c cardRef targets) hpaid q
  | @skill c p ability targets hint x _ _ payment free hx _ _ _ _ _ u es hl =>
      refine .aside (.trans ?_ ((applyLeaves_frame hl hs).fades free.pending)) ?_
      · exact .of_players (PlayerFrame.write (setAt_frame hx rfl rfl rfl rfl)) rfl
      · exact quiet_append.mpr ⟨quiet_payment _ _, quiet_cons.mpr ⟨rfl, applyLeaves_quiet hl hs⟩⟩
  | @retreated c slot hint x y _ payment free hmain hbench _ =>
      refine .aside (.of_players (fun q => ?_) rfl) (by simp [GameEvent.ofMainDestruction])
      exact PlayerFrame.write
        (s := ({ s with turn := { s.turn with normalRetreatUsed := true } } : GameState))
        (exchange_frame hmain hbench payment.bank) q
  | @attacked c _ _ _ _ payment _ _ _ _ _ =>
      have hpaid : PlayerFrame (s.player c) { s.player c with mana := payment.bank } :=
        zones_frame rfl rfl rfl rfl
      refine .aside (.of_players (fun q => ?_) rfl) (by simp [GameEvent.ofMainDestruction])
      exact PlayerFrame.write (s := attackBegun s c .main) hpaid q
  | handedOver _ _ _ =>
      refine .aside (.of_players (fun q => ?_) rfl) (by simp [GameEvent.ofMainDestruction])
      obtain ⟨f, -, hq⟩ := handover_player (windowClosed s) q
      rw [hq]
      exact map_frame _ f
  | converted _ _ _ _ =>
      refine .aside (.of_players (fun q => ?_) rfl) (by simp [GameEvent.ofMainDestruction])
      exact PlayerFrame.write (s := ({ s with coin := none } : GameState)) (bank_frame _ _) q
  | manaChosen hp _ =>
      refine .aside (.of_players (fun q => ?_) ?_) (by simp [GameEvent.ofMainDestruction])
      · exact PlayerFrame.write (s := ({ s with pending := none } : GameState)) (bank_frame _ _) q
      · rw [roster_choice_of_mana hp]
        rfl
  | @promotionChosen c slot x hp hx =>
      rw [roster_setPlayer]
      have h : Answer s.roster current _ [.summonPromoted c slot] :=
        .promoted
          ({ s.player c with bench := (s.player c).bench.set slot none } : PlayerState).benched
          (by simp [GameState.roster, hp, PendingInput.ofDestruction])
      simpa [GameState.roster, GameState.player, PlayerState.benched] using h
  | @prizeChosen c i card hp hcard =>
      rw [roster_setPlayer]
      have hlen : (s.player c.opponent).prizes.length ≠ 0 := by
        intro hz
        rw [List.length_eq_zero_iff.mp hz] at hcard
        cases hcard
      have h : Answer s.roster current _ [.prizeRecovered c.opponent card.instanceId] :=
        .recovered (by simp [GameState.roster, hp, PendingInput.ofDestruction]) hlen
      have hi : i < (s.player c.opponent).prizes.length := (List.getElem?_eq_some_iff.mp hcard).1
      simp only [GameState.player] at hi
      simpa [GameState.roster, GameState.player, PlayerState.benched, List.length_eraseIdx, hi] using h
  | turnEnded _ _ _ _ | passed _ _ | passedToStack _ _ _ | resigned =>
      exact .aside (.of_players (fun _ => .refl _) rfl) (by simp [GameEvent.ofMainDestruction])

/-! ## Runs -/

theorem Follows.eq_none (h : Follows current []) : current = none := by
  obtain ⟨A, rfl, hwork⟩ := h
  cases hc : A.current with
  | none => rfl
  | some c =>
      obtain ⟨p, stage⟩ := c
      simp only [Agenda.work, hc, List.append_eq_nil_iff] at hwork
      cases stage <;> cases hwork.1.2

/-- **The rule for the destructions of a run.** What holds of the roster a run starts with, and is
kept by the steps that meet the guard and by every action, holds where the run arrives. -/
theorem Opening.run_roster {G : Entry GameState GameAction GameEvent → Prop}
    {J : List GameEvent → Roster → Current → Prop} {cards : CardSet} {start : GameState}
    (h : Opening cards start) (init : J [] start.roster none)
    (action : ∀ {evs es : List GameEvent} {r r' : Roster} {current : Current}, J evs r current →
      Answer r current r' es → J (evs ++ es) r' current)
    (drain : ∀ {evs es : List GameEvent} {s t : GameState} {current next : Current},
      J evs s.roster current → s.roster.choice = none → G ⟨s, none, es⟩ →
      DestructionStep s current t next es → J (evs ++ es) t.roster next)
    {s : GameState} {tr : List (Entry GameState GameAction GameEvent)}
    (hr : engine.Run start tr s) (hg : ∀ x ∈ tr, G x) (hs : s.status = .playing) :
    ∃ current, Follows current s.work ∧ J (facts tr) s.roster current := by
  have hrun : Owned s ∧ Coherent s ∧
      (s.status = .playing → ∃ current, Follows current s.work ∧ J (facts tr) s.roster current) := by
    refine hr.induct (I := fun tr s => Owned s ∧ Coherent s ∧
        (s.status = .playing → ∃ current, Follows current s.work ∧ J (facts tr) s.roster current))
      h.rest ⟨h.owner, h.coherent, fun _ => ⟨none, ?_, init⟩⟩ ?_ ?_ hg
    · rw [h.work]
      exact .nil
    · intro tr s t a es ⟨ho, hc, hJ⟩ hrest ha _
      obtain ⟨hs, hst, -⟩ := accept_step ha
      refine ⟨ho.action hs hst, hc.action hs hrest hst, fun _ => ?_⟩
      obtain ⟨current, hf, hj⟩ := hJ hs
      have hidle : FreeMain s → current = none := by
        intro free
        rw [(hc.idle hs hrest free.pending free.window).1] at hf
        exact hf.eq_none
      refine ⟨current, hst.follows hs hf, ?_⟩
      simpa using action hj (hst.answer hs hidle)
    · intro tr s t es ⟨ho, hc, hJ⟩ hn hG
      refine ⟨ho.descends (drainStep_descends hn), hc.drainStep hn, fun ht => ?_⟩
      have hd := (drainStep_cases hn).1
      obtain ⟨current, hf, hj⟩ := hJ hd.playing
      obtain ⟨next, hstep⟩ := drainStep_roster ho hf hn ht
      refine ⟨next, hstep.follows, ?_⟩
      simpa using drain hj (roster_choice_of_none hd.pending) hG hstep
  exact hrun.2.2 hs

end

end Summoners
