import Summoners.Proof.Moments
import Summoners.Steps.Stock

/-! # Who is Ready, and why

Moment by moment: a Summon put in play enters exhausted, a Skill and an upgrade exhaust the Summon whose
position they name, a readying names the positions of the Summons it readies, and whatever moves a
Summon takes its readiness along. So a Summon that has been exhausted stays so until a readying names
it.
-/

namespace Summoners
set_option autoImplicit false

open Effects RunToCompletion

/-- The actions that exhaust the Summon at a position they name. -/
def GameAction.Exhausts (a : GameAction) (q : PlayerId) (p : Position) : Prop :=
  (∃ ability targets hint, a = .activateSkill q p ability targets hint) ∨
    ∃ card, a = .upgradeSummon q card p

/-- The facts report a readying of the position. -/
def Readies (es : List GameEvent) (q : PlayerId) (p : Position) : Prop :=
  ∃ ps, .summonsReadied q ps ∈ es ∧ p ∈ ps

/-- A Summon keeps its base, and its readiness too unless a readying names its position. -/
def Rests (es : List GameEvent) : PlayerId → BoardRel := fun q p y r z =>
  z.base = y.base ∧
    (z.readiness = y.readiness ∨ r = p ∧ z.readiness = .ready ∧ Readies es q p)

/-- The Summon of that base, by the Skill a step activates. -/
def activates (x : Entry GameState GameAction GameEvent) : Option CardInstanceId :=
  match x.input with
  | some (.activateSkill c p _ _ _) => ((x.before.player c).summonAt p).map SummonInstance.base
  | _ => none

/-- The Summon, known by its base, that a step puts in play, upgrades or has act. -/
def tires (x : Entry GameState GameAction GameEvent) : Option CardInstanceId :=
  match x.input with
  | some (.activateSkill c p _ _ _) | some (.upgradeSummon c _ p) =>
      ((x.before.player c).summonAt p).map SummonInstance.base
  | some (.playSummon _ card _) => some card
  | _ => none

/-- In this moment a readying names the Summon of that base where it stands. -/
def Moment.Names (m : Moment) (i : CardInstanceId) : Prop :=
  ∃ q p y, (m.before.player q).summonAt p = some y ∧ y.base = i ∧ Readies m.emitted q p

/-- The Summon of that base, where it is in play, is exhausted. -/
def Tired (s : GameState) (i : CardInstanceId) : Prop :=
  EachOf (fun y => y.readiness = .exhausted) s i

/-- What a moment may do to a Summon: let it rest, or exhaust it where the action names it. -/
def Turned (x : Entry GameState GameAction GameEvent) (m : Moment) : PlayerId → BoardRel :=
  fun q p y r z => Rests m.emitted q p y r z ∨
    z.base = y.base ∧ r = p ∧ z.readiness = .exhausted ∧ m.before = x.before ∧
      ∃ a, x.input = some a ∧ a.Exhausts q p

section
variable {s t u : GameState} {es : List GameEvent} {i : CardInstanceId} {m : Moment}
  {tr pre : List (Entry GameState GameAction GameEvent)}
  {x : Entry GameState GameAction GameEvent}

/-! ## One moment -/

theorem rests_moves (es : List GameEvent) : ∀ c p x q, Rests es c p x q x :=
  fun _ _ _ _ => ⟨rfl, .inl rfl⟩

theorem mem_controlledPositions {ps : PlayerState} {p : Position} {y : SummonInstance}
    (hy : ps.summonAt p = some y) : p ∈ Upkeep.controlledPositions ps := by
  unfold Upkeep.controlledPositions
  cases p with
  | main =>
      rw [PlayerState.summonAt_main] at hy
      simp [hy]
  | bench slot =>
      rw [PlayerState.summonAt_bench] at hy
      have hslot : slot ∈ BenchSlot.all.filter (fun r => (ps.bench.get r).isSome) :=
        List.mem_filter.mpr ⟨slot.mem_all, by rw [hy]; rfl⟩
      exact List.mem_append_right _ (List.mem_map_of_mem hslot)

theorem LeafStep.rests {source : EffectSource} {targets : List Position} {leaf : EffectLeaf}
    (h : LeafStep s source targets leaf t es) : Carries (Rests es) s t := by
  refine h.carries (rests_moves es) (fun same touch => ⟨same.base, ?_⟩)
    (fun _ _ _ _ => ⟨rfl, .inl rfl⟩)
  rcases touch.readiness with hr | ⟨hr, he⟩
  · exact .inl hr
  · exact .inr ⟨rfl, hr, _, he, List.mem_singleton_self _⟩

theorem ItemStep.rests {item : WorkItem} (h : ItemStep s item t es)
    (hfire : ∀ c p ev ability effects, item = .fireTrigger c p ev ability →
      Triggers.abilityAt s c p ability ≠ some (false, effects)) : Carries (Rests es) s t := by
  refine h.carries (rests_moves es) (fun _ _ _ => ⟨rfl, .inl rfl⟩) (fun p x hes hx => ?_)
    (fun c p ev ability effects es' hitem ha => absurd ha (hfire c p ev ability effects hitem))
  refine ⟨rfl, .inr ⟨rfl, rfl, _, ?_, mem_controlledPositions hx⟩⟩
  rw [hes]
  exact List.mem_singleton_self _

/-- An action that exhausts nobody and puts nobody in play. -/
theorem ActionStep.rests {a : GameAction} (h : ActionStep s a t es)
    (hplay : ∀ c card slot, a ≠ .playSummon c card slot)
    (hupgrade : ∀ c card p, a ≠ .upgradeSummon c card p)
    (hskill : ∀ c p ability targets hint, a ≠ .activateSkill c p ability targets hint) :
    Carries (Rests es) s t := by
  refine h.carries (rests_moves es) hplay hupgrade
    (fun c p ability targets hint ha => absurd ha (hskill c p ability targets hint))
    (fun _ _ _ q p x => ⟨(renew_same _ q x).1.base, .inl ?_⟩)
  unfold renew
  split <;> rfl

theorem Carries.turned (h : Carries (Rests m.emitted) s t) : Carries (Turned x m) s t := by
  intro q p z hz
  obtain ⟨r, y, hy, hrests⟩ := h q p z hz
  exact ⟨r, y, hy, .inl hrests⟩

theorem MomentStep.turned (h : MomentStep x m) {q : PlayerId} {r : Position} {z : SummonInstance}
    (hz : (m.after.player q).summonAt r = some z) :
    (∃ p y, (m.before.player q).summonAt p = some y ∧ Turned x m q p y r z) ∨
      ∃ card ∈ (m.before.player q).hand, z = Board.enteringSummon q card := by
  refine h.tracks (fun _ _ _ => .inl ⟨rfl, .inl rfl⟩) (fun _ _ _ _ hleaf => hleaf.rests.turned)
    (fun c p ability targets hint y hinput hbefore => ?_)
    (fun c card p y ref hinput hbefore => ?_)
    (fun a _ _ hst hplay hupgrade hskill => (hst.rests hplay hupgrade hskill).turned)
    (fun item work _ _ hi hfire => (hi.rests hfire).turned) hz
  · exact .inr ⟨rfl, rfl, rfl, hbefore, _, hinput, .inl ⟨ability, targets, hint, rfl⟩⟩
  · exact .inr ⟨rfl, rfl, rfl, hbefore, _, hinput, .inr ⟨card, rfl⟩⟩

theorem Within.distinct (h : Within x m) (hd : Distinct x.before) : Distinct m.before :=
  nodup_of_tally_le hd h.cards

/-- What a moment does to the readiness of one Summon, followed by its base. -/
theorem Within.law (h : Within x m) (hd : Distinct x.before) (ho : Owned x.before)
    {q q' : PlayerId} {p r : Position} {y z : SummonInstance}
    (hy : (m.before.player q).summonAt p = some y) (hz : (m.after.player q').summonAt r = some z)
    (hbase : z.base = y.base) :
    q' = q ∧ (r ≠ p → z.readiness = y.readiness) ∧
      (y.readiness = .ready → z.readiness = .exhausted →
        m.before = x.before ∧ ∃ a, x.input = some a ∧ a.Exhausts q p) ∧
      (y.readiness = .exhausted → z.readiness = .ready →
        y.controller = q ∧ r = p ∧ Readies m.emitted q p) := by
  have hdistinct := h.distinct hd
  have howner : y.controller = q := ((ho.descends h.descends) q p y hy).2
  rcases h.step.turned hz with ⟨p', y', hy', hturned⟩ | ⟨card, hcard, rfl⟩
  · have hb : z.base = y'.base := by
      rcases hturned with ⟨hb, -⟩ | ⟨hb, -⟩ <;> exact hb
    obtain ⟨rfl, rfl⟩ := hdistinct.position_eq hy' hy (hb.symm.trans hbase)
    obtain rfl : y' = y := by
      rw [hy] at hy'
      exact (Option.some.inj hy').symm
    rcases hturned with ⟨-, hr⟩ | ⟨-, hr, hexhausted, hbefore, ha⟩
    · refine ⟨rfl, fun hne => ?_, fun hready hexhausted => ?_, fun hexhausted hready => ?_⟩
      · exact hr.resolve_right (fun hreadied => hne hreadied.1)
      · rcases hr with hr | ⟨-, hr, -⟩
        · rw [hr, hready] at hexhausted
          cases hexhausted
        · rw [hr] at hexhausted
          cases hexhausted
      · rcases hr with hr | ⟨hr, -, hes⟩
        · rw [hr, hexhausted] at hready
          cases hready
        · exact ⟨howner, hr, hes⟩
    · refine ⟨rfl, fun hne => absurd hr hne, fun _ _ => ⟨hbefore, ha⟩, fun _ hready => ?_⟩
      rw [hexhausted] at hready
      cases hready
  · have hstock : card ∈ (m.before.player q').deck ++ (m.before.player q').hand ++
        (m.before.player q').prizes := by simp [hcard]
    exact absurd hbase.symm (hdistinct.base_ne hy hstock)

/-- An exhausted Summon stays so until a readying names it. -/
theorem Within.tired (h : Within x m) (ht : Tired m.before i) : m.Names i ∨ Tired m.after i := by
  by_cases hnames : m.Names i
  · exact .inl hnames
  · refine .inr (fun q r z hz hbase => ?_)
    rcases h.step.turned hz with ⟨p, y, hy, hturned⟩ | ⟨card, -, rfl⟩
    · rcases hturned with ⟨hb, hr | ⟨-, -, hes⟩⟩ | ⟨-, -, hexhausted, -⟩
      · exact hr.trans (ht q p y hy (hb.symm.trans hbase))
      · exact absurd ⟨q, p, y, hy, hb.symm.trans hbase, hes⟩ hnames
      · exact hexhausted
    · rfl

/-- So it does over a whole step. -/
theorem tired_takes (h : engine.Takes x t) (ht : Tired x.before i) :
    (∃ m ∈ moments x, m.Names i) ∨ Tired t i := by
  obtain ⟨hleads, -, hwithin⟩ := moments_spec h
  exact hleads.induct (I := fun u => Tired u i) (P := fun m => m.Names i)
    (fun m hm => (hwithin m hm).tired) ht

/-- A step that puts a Summon in play, upgrades it or has it act leaves it exhausted, unless a leaf
readies it. -/
theorem tired_of_tires (h : engine.Takes x t) (hd : Distinct x.before) (ht : tires x = some i) :
    (∃ m ∈ moments x, m.Names i) ∨ Tired t i := by
  have hexhausted : ∀ {c : PlayerId} {p : Position} {y y' : SummonInstance} {ps : PlayerState},
      (x.before.player c).summonAt p = some y → y.base = i →
      (∀ r, ps.summonAt r = (x.before.player c).summonAt r) → y'.readiness = .exhausted →
        Tired (x.before.setPlayer c (ps.setAt p (some y'))) i := by
    intro c p y y' ps hy hi hps hy'
    refine eachOf_placed hps hy' (fun q r z hz hbase => ?_)
    exact hd.position_eq hz hy (hbase.trans hi.symm)
  cases hinput : x.input with
  | none => simp [tires, hinput] at ht
  | some a =>
      cases a with
      | activateSkill c p ability targets hint =>
          obtain ⟨y, payment, ms, hy, hmoments, hleads, -, hwithin⟩ := skillMoments_spec hinput h
          simp only [tires, hinput, hy, Option.map_some, Option.some.injEq] at ht
          have hps := summonAt_mana (x.before.player c) payment.bank
          have hbegun : Tired (skillBegun x.before c p payment.bank y) i :=
            hexhausted hy ht hps rfl
          rcases hleads.induct (I := fun u => Tired u i) (P := fun m => m.Names i)
            (fun m hm => (hwithin m hm).tired) hbegun with ⟨m, hm, hn⟩ | ht
          · refine .inl ⟨m, ?_, hn⟩
            rw [hmoments]
            exact List.mem_cons_of_mem _ hm
          · exact .inr ht
      | upgradeSummon c card p =>
          obtain ⟨-, hst, -⟩ := accept_step (h.accept hinput)
          simp only [tires, hinput] at ht
          generalize x.emitted = emitted at hst
          cases hst with
          | @upgraded _ _ _ y cardRef hand _ _ _ _ _ hy _ _ _ _ _ _ _ _ =>
              rw [hy, Option.map_some, Option.some.injEq] at ht
              have hps := summonAt_hand (x.before.player c) hand
              exact .inr (hexhausted hy ht hps rfl)
      | playSummon c card slot =>
          obtain ⟨-, hst, -⟩ := accept_step (h.accept hinput)
          simp only [tires, hinput, Option.some.injEq] at ht
          generalize x.emitted = emitted at hst
          cases hst with
          | @played _ _ _ cardRef hand _ _ _ hhand _ _ _ =>
              obtain ⟨hmem, hid⟩ := hhand.mem
              have hps := summonAt_hand (x.before.player c) hand
              have hentering : (Board.enteringSummon c cardRef).readiness = .exhausted := rfl
              refine .inr (eachOf_placed (p := .bench slot) hps hentering (fun q r z hz hbase => ?_))
              refine absurd (hbase.trans (ht.symm.trans hid.symm)) (hd.base_ne (r := c) hz ?_)
              simp [hmem]
      | _ => simp [tires, hinput] at ht

/-! ## Runs -/

/-- What a run keeps: a Summon that has been tired has been named since, or it is exhausted. -/
structure Rested (tr : List (Entry GameState GameAction GameEvent)) (s : GameState) : Prop where
  distinct : Distinct s
  owned : Owned s
  tired : ∀ pre y mid i, tr = pre ++ y :: mid → tires y = some i →
    (∃ z ∈ y :: mid, ∃ m ∈ moments z, m.Names i) ∨ Tired s i

theorem Rested.step (h : Rested tr x.before) (hx : engine.Takes x t) (hd : Distinct t)
    (ho : Owned t) : Rested (tr ++ [x]) t := by
  refine ⟨hd, ho, fun pre y mid i heq hy => ?_⟩
  rcases List.eq_nil_or_concat mid with rfl | ⟨front, last, rfl⟩
  · obtain ⟨rfl, hlast⟩ := List.append_inj' heq rfl
    cases hlast
    refine (tired_of_tires hx h.distinct hy).imp_left (fun hm => ⟨x, List.mem_singleton_self _, hm⟩)
  · rw [List.concat_eq_append] at heq ⊢
    rw [← List.cons_append, ← List.append_assoc] at heq
    obtain ⟨htr, hlast⟩ := List.append_inj' heq rfl
    cases hlast
    rcases h.tired pre y front i htr hy with ⟨z, hz, hm⟩ | ht
    · exact .inl ⟨z, by rw [← List.cons_append]; exact List.mem_append_left _ hz, hm⟩
    · rcases tired_takes hx ht with hm | ht
      · exact .inl ⟨x, by simp, hm⟩
      · exact .inr ht

theorem run_rested {cards : CardSet} {scenario : Scenario} {start : GameState}
    (hstart : fromScenario cards scenario = .ok start) (hr : engine.Run start tr s)
    (hu : Machine.Passes tr s pre u) : Rested pre u := by
  have hopen := opening_of_fromScenario hstart
  refine hr.passes hopen.rest ⟨start_nodup hstart, hopen.owner, fun pre y mid i heq => by simp at heq⟩
    ?_ ?_ hu
  · intro tr s t a es hI _ ha
    obtain ⟨hs, hst, -⟩ := accept_step ha
    exact hI.step (x := ⟨s, some a, es⟩) ha (hI.distinct.action hs hst) (hI.owned.action hs hst)
  · intro tr s t es hI hn
    exact hI.step (x := ⟨s, none, es⟩) hn (hI.distinct.drainStep hn)
      (hI.owned.descends (drainStep_descends hn))

/-- A Skill is activated by a Ready Summon. -/
theorem ready_of_activates (h : engine.Takes x t) (ha : activates x = some i) :
    ∃ q p y, (x.before.player q).summonAt p = some y ∧ y.base = i ∧ y.readiness = .ready := by
  cases hinput : x.input with
  | none => simp [activates, hinput] at ha
  | some a =>
      cases a with
      | activateSkill c p ability targets hint =>
          obtain ⟨-, hst, -⟩ := accept_step (h.accept hinput)
          simp only [activates, hinput] at ha
          generalize x.emitted = emitted at hst
          cases hst with
          | skill _ hy hready _ _ _ _ _ =>
              rw [hy, Option.map_some, Option.some.injEq] at ha
              exact ⟨c, p, _, hy, ha, hready⟩
      | _ => simp [activates, hinput] at ha

end

/-- **Readiness changes only by printed means.** Every step of a run comes apart into moments; in each,
a Summon followed by its base is exhausted only by the Skill or the upgrade that names its position and
readied only by a readying of its controller that names the position it keeps; a Summon that moves takes
its readiness along. A Summon put in play enters exhausted. And after a Summon has been put in play,
upgraded or has acted, a readying names it before it acts again. -/
theorem readiness_by_printed_means {cards : CardSet} {scenario : Scenario} {start s : GameState}
    {tr : List (Entry GameState GameAction GameEvent)}
    (hstart : fromScenario cards scenario = .ok start) (hr : engine.Run start tr s) :
    (∀ x ∈ tr, ∃ t, engine.Takes x t ∧ Leads x.before (moments x) t ∧
      (moments x).flatMap Moment.emitted = x.emitted ∧
      (∀ m ∈ moments x, ∀ q p y q' r z, (m.before.player q).summonAt p = some y →
        (m.after.player q').summonAt r = some z → z.base = y.base →
          q' = q ∧ (r ≠ p → z.readiness = y.readiness) ∧
            (y.readiness = .ready → z.readiness = .exhausted →
              m.before = x.before ∧ ∃ a, x.input = some a ∧ a.Exhausts q p) ∧
            (y.readiness = .exhausted → z.readiness = .ready →
              y.controller = q ∧ r = p ∧ Readies m.emitted q p)) ∧
      ∀ c card slot, x.input = some (.playSummon c card slot) →
        ∃ z, (t.player c).bench.get slot = some z ∧ z.base = card ∧ z.readiness = .exhausted) ∧
      ∀ pre x mid y post i, tr = pre ++ x :: mid ++ y :: post → tires x = some i →
        activates y = some i → ∃ z ∈ x :: mid, ∃ m ∈ moments z, m.Names i := by
  have hentry : ∀ {pre post : List (Entry GameState GameAction GameEvent)}
      {x : Entry GameState GameAction GameEvent}, tr = pre ++ x :: post →
        Rested pre x.before ∧ ∃ t, engine.Takes x t := by
    intro pre post x heq
    refine ⟨run_rested hstart hr (.inr ⟨x, post, heq, rfl⟩), ?_⟩
    obtain ⟨-, t, ht, -⟩ := (hr.split (I := fun _ _ => True) (opening_of_fromScenario hstart).rest
      trivial (fun _ _ _ => trivial) (fun _ _ => trivial)).2 heq
    exact ⟨t, ht⟩
  refine ⟨fun x hx => ?_, fun pre x mid y post i heq hx hy => ?_⟩
  · obtain ⟨pre, post, heq⟩ := List.append_of_mem hx
    obtain ⟨hrested, t, ht⟩ := hentry heq
    obtain ⟨hleads, hfacts, hwithin⟩ := moments_spec ht
    refine ⟨t, ht, hleads, hfacts, fun m hm q p y q' r z hy hz hbase => ?_,
      fun c card slot hinput => ?_⟩
    · exact (hwithin m hm).law hrested.distinct hrested.owned hy hz hbase
    · obtain ⟨-, hst, -⟩ := accept_step (ht.accept hinput)
      generalize x.emitted = emitted at hst
      cases hst with
      | @played _ _ _ cardRef _ _ _ _ hhand _ _ _ =>
          refine ⟨Board.enteringSummon c cardRef, ?_, hhand.mem.2, rfl⟩
          rw [GameState.player_setPlayer_self, Bench.get_set_self]
  · obtain ⟨hrested, t, ht⟩ := hentry heq
    obtain ⟨q, p, w, hw, hbase, hready⟩ := ready_of_activates ht hy
    rcases hrested.tired pre x mid i rfl hx with hm | htired
    · exact hm
    · have hexhausted : w.readiness = .exhausted := htired q p w hw hbase
      rw [hready] at hexhausted
      cases hexhausted

open Fixtures in
/-- A Skill that swaps its own Summon to the Bench and readies it there; the Summon acts again. -/
theorem readiness_by_printed_means_twice :
    ∃ start tr s, fromScenario
        ⟨[summon 1 10 .base [attack 1 [strike 10], skill 1 [.swapPositions, .readySummon]] [.matter]]⟩
        (facing (benching (lone (inPlay 1 1)) .first (inPlay 2 1)) (lone (inPlay 3 1))) = .ok start ∧
      engine.Run start tr s ∧ ∃ pre x mid y post, tr = pre ++ x :: mid ++ y :: post ∧
        tires x = some ⟨1⟩ ∧ activates y = some ⟨1⟩ ∧
          ∃ z ∈ x :: mid, ∃ m ∈ moments z, m.Names ⟨1⟩ := by
  have hdemo : (demoTrace
      ⟨[summon 1 10 .base [attack 1 [strike 10], skill 1 [.swapPositions, .readySummon]] [.matter]]⟩
      (facing (benching (lone (inPlay 1 1)) .first (inPlay 2 1)) (lone (inPlay 3 1)))
      [.activateSkill .one .main (fid 1 2) [.bench .first] none,
        .activateSkill .one (.bench .first) (fid 1 2) [.bench .first] none]).map (fun r =>
          decide (r.2.1.map (fun x => (tires x, activates x)) =
            ((some ⟨1⟩, some ⟨1⟩) :: List.replicate 4 (none, none)) ++
              (some ⟨1⟩, some ⟨1⟩) :: List.replicate 4 (none, none))) = some true := by
    decide +kernel
  obtain ⟨⟨start, tr, s⟩, hr, hv⟩ := Option.map_eq_some_iff.mp hdemo
  have hmap := of_decide_eq_true hv
  obtain ⟨hstart, hrun⟩ := run_of_demoTrace hr
  obtain ⟨front, back, htr, hfront, hback⟩ := List.map_eq_append_iff.mp hmap
  obtain ⟨x, mid, rfl, hx, -⟩ := List.map_eq_cons_iff.mp hfront
  obtain ⟨y, post, rfl, hy, -⟩ := List.map_eq_cons_iff.mp hback
  simp only [Prod.mk.injEq] at hx hy
  refine ⟨start, tr, s, hstart, hrun, [], x, mid, y, post, htr, hx.1, hy.2, ?_⟩
  exact (readiness_by_printed_means hstart hrun).2 [] x mid y post ⟨1⟩ htr hx.1 hy.2

end Summoners
