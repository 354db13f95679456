import Summoners.Steps.Facts
import Summoners.Steps.Stock

/-! # The moments of a step

A step may run several effect leaves, and a Summon may move between two of them. `moments` takes a step
apart: the leaves one by one, and what the handler does before and behind them. They lead from the state
before the step to the state after it, and their facts are the facts of the step.
-/

namespace Summoners
set_option autoImplicit false

open Effects RunToCompletion

/-- One piece of a step, with the leaf it runs, if it runs one. -/
structure Moment where
  before : GameState
  cause : Option (EffectSource × EffectLeaf)
  emitted : List GameEvent
  after : GameState

/-- The leaves of one ability, until one of them ends the game. -/
def leafMoments (s : GameState) (source : EffectSource) (targets : List Position) :
    List EffectLeaf → List Moment
  | [] => []
  | leaf :: leaves =>
      let r := applyLeaf s source targets leaf
      ⟨s, some (source, leaf), r.2, r.1⟩ ::
        if r.1.status.isPlaying then leafMoments r.1 source targets leaves else []

/-- The payment and the exhaustion of a Skill, then its leaves. -/
def skillMoments (s : GameState) (c : PlayerId) (p : Position) (ability : EntityId)
    (targets : List Position) (hint : Option ManaType) : List Moment :=
  match (s.player c).summonAt p with
  | none => []
  | some x =>
      match s.cards.get x.chain.top.defId with
      | none => []
      | some top =>
          match (top.all .skill).find? (fun e => e.id = ability) with
          | none => []
          | some skill =>
              match Payment.deduct (s.player c).mana ((skill.get .cost).getD .default) hint with
              | .error _ => []
              | .ok payment =>
                  let u := skillBegun s c p payment.bank x
                  ⟨s, none, payment.events c ++ [.skillActivated c p ability], u⟩ ::
                    leafMoments u (.skill c p ability) targets (skill.all .effectLeaf)

/-- The top of the Stack taken off, its leaves, its card put away. -/
def stackMoments (s : GameState) : List Moment :=
  match s.stack.getLast? with
  | none => []
  | some item =>
      let u := poppedStack s
      let ability := itemLeaves u item
      let r := applyLeaves u ability.1 ability.2.1 ability.2.2
      ⟨s, none, [.stackItemResolved item], u⟩ ::
        (leafMoments u ability.1 ability.2.1 ability.2.2 ++
          [⟨r.1, none, [], Resolution.closeSegment (placeItem r.1 item)⟩])

/-- A step that runs no leaf, or the front of work taken off and the leaves of the trigger it fires. -/
def workMoments (s : GameState) (whole : List Moment) : List Moment :=
  match s.work with
  | .fireTrigger c p ev ability :: work =>
      match Triggers.abilityAt (poppedWork s work) c p ability with
      | some (false, effects) =>
          ⟨s, none, [.triggerFired c p ev ability], poppedWork s work⟩ ::
            leafMoments (poppedWork s work) (.trigger c p ability)
              (Triggers.implicitTargets p effects) effects
      | _ => whole
  | _ => whole

def moments (x : Entry GameState GameAction GameEvent) : List Moment :=
  match x.input with
  | some (.activateSkill c p ability targets hint) => skillMoments x.before c p ability targets hint
  | some a => (engine.accept x.before a).toList.map (fun r => ⟨x.before, none, x.emitted, r.1⟩)
  | none =>
      if Resolution.stackHasUnresolvedItems x.before then stackMoments x.before
      else workMoments x.before
        ((engine.next x.before).toList.map (fun r => ⟨x.before, none, x.emitted, r.1⟩))

/-- The moments follow each other from the one state to the other. -/
inductive Leads : GameState → List Moment → GameState → Prop
  | refl (s : GameState) : Leads s [] s
  | cons {m : Moment} {ms : List Moment} {t : GameState} (h : Leads m.after ms t) :
      Leads m.before (m :: ms) t

section
variable {s t u : GameState} {es : List GameEvent} {ms ms' : List Moment} {m : Moment}
  {x : Entry GameState GameAction GameEvent}

theorem Leads.append (h : Leads s ms t) (h' : Leads t ms' u) : Leads s (ms ++ ms') u := by
  induction h with
  | refl => exact h'
  | cons _ ih => exact .cons (ih h')

/-- What every moment keeps or gives up for `P`, the whole of them does. -/
theorem Leads.induct {I : GameState → Prop} {P : Moment → Prop} (h : Leads s ms t)
    (step : ∀ m ∈ ms, I m.before → P m ∨ I m.after) (hs : I s) : (∃ m ∈ ms, P m) ∨ I t := by
  induction h with
  | refl => exact .inr hs
  | @cons m ms t _ ih =>
      rcases step m List.mem_cons_self hs with hm | hm
      · exact .inl ⟨m, List.mem_cons_self, hm⟩
      · rcases ih (fun n hn => step n (List.mem_cons_of_mem _ hn)) hm with ⟨n, hn, hp⟩ | ht
        · exact .inl ⟨n, List.mem_cons_of_mem _ hn, hp⟩
        · exact .inr ht

/-! ## Leaves -/

theorem leafMoments_leads {source : EffectSource} {targets : List Position}
    {leaves : List EffectLeaf} (h : applyLeaves s source targets leaves = (t, es)) :
    Leads s (leafMoments s source targets leaves) t ∧
      (leafMoments s source targets leaves).flatMap Moment.emitted = es := by
  induction leaves generalizing s t es with
  | nil =>
      cases h
      exact ⟨.refl s, rfl⟩
  | cons leaf leaves ih =>
      unfold applyLeaves at h
      unfold leafMoments
      simp only at h ⊢
      split at h
      · rename_i hplaying
        cases h
        obtain ⟨hleads, hfacts⟩ := ih (s := (applyLeaf s source targets leaf).1) rfl
        rw [if_pos hplaying]
        refine ⟨.cons (m := ⟨s, _, _, _⟩) hleads, ?_⟩
        rw [List.flatMap_cons, hfacts]
      · rename_i hover
        rw [if_neg hover, h]
        exact ⟨.cons (m := ⟨s, _, es, t⟩) (.refl t), by simp⟩

/-- Every leaf moment is the step of one leaf, in a Playing state that holds the same cards and Summons
as the first. -/
theorem mem_leafMoments {source : EffectSource} {targets : List Position}
    {leaves : List EffectLeaf} (hs : s.status = .playing)
    (hm : m ∈ leafMoments s source targets leaves) :
    (∃ leaf, m.cause = some (source, leaf) ∧
        LeafStep m.before source targets leaf m.after m.emitted) ∧
      m.before.status = .playing ∧ Keeps s m.before ∧ Descends s m.before := by
  induction leaves generalizing s with
  | nil => cases hm
  | cons leaf leaves ih =>
      have hleaf := applyLeaf_step s source targets leaf
      unfold leafMoments at hm
      rcases List.mem_cons.mp hm with rfl | hm
      · exact ⟨⟨leaf, rfl, hleaf⟩, hs, .refl s,
          fun q => descends_of_board rfl rfl⟩
      · split at hm
        · rename_i hplaying
          obtain ⟨⟨l, hl, hstep⟩, hstatus, hkeeps, hdescends⟩ :=
            ih ((GameStatus.isPlaying_iff _).mp hplaying) hm
          have hfirst : Descends s (applyLeaf s source targets leaf).1 :=
            hleaf.carries (R := anywhere SameSummon) (fun _ _ x _ => .refl x)
              (fun same _ => same) (fun _ _ _ _ => ⟨rfl, rfl, rfl⟩)
          refine ⟨⟨l, hl, hstep⟩, hstatus, hleaf.keeps.trans hkeeps,
            fun q p y hy => ?_⟩
          obtain ⟨r, z, hz, hzy⟩ := hdescends q p y hy
          obtain ⟨r', w, hw, hwz⟩ := hfirst q r z hz
          exact ⟨r', w, hw, hwz.trans hzy⟩
        · cases hm

/-! ## The moments of one step -/

/-- What a moment of the step `x` is. -/
inductive MomentStep (x : Entry GameState GameAction GameEvent) : Moment → Prop
  | leaf {m : Moment} {source : EffectSource} {targets : List Position} {leaf : EffectLeaf}
      (hcause : m.cause = some (source, leaf))
      (h : LeafStep m.before source targets leaf m.after m.emitted) : MomentStep x m
  | aside {m : Moment} (hcause : m.cause = none)
      (hboards : ∀ q, (m.after.player q).main = (m.before.player q).main ∧
        (m.after.player q).bench = (m.before.player q).bench)
      (hes : ∀ c ps, .summonsReadied c ps ∉ m.emitted) : MomentStep x m
  | begun {c : PlayerId} {p : Position} {ability : EntityId} {targets : List Position}
      {hint : Option ManaType} {y : SummonInstance} {payment : Payment}
      (hinput : x.input = some (.activateSkill c p ability targets hint))
      (hy : (x.before.player c).summonAt p = some y) :
      MomentStep x ⟨x.before, none, payment.events c ++ [.skillActivated c p ability],
        skillBegun x.before c p payment.bank y⟩
  | action {t : GameState} {a : GameAction} (hinput : x.input = some a)
      (h : ActionStep x.before a t x.emitted)
      (hskill : ∀ c p ability targets hint, a ≠ .activateSkill c p ability targets hint) :
      MomentStep x ⟨x.before, none, x.emitted, t⟩
  | item {t : GameState} {item : WorkItem} {work : List WorkItem} (hitem : executes x = some item)
      (h : ItemStep (poppedWork x.before work) item t x.emitted)
      (hfire : ∀ c p ev ability effects, item = .fireTrigger c p ev ability →
        Triggers.abilityAt (poppedWork x.before work) c p ability ≠ some (false, effects)) :
      MomentStep x ⟨x.before, none, x.emitted, t⟩

/-- A moment of a step, in a state that holds no other cards and Summons than the step began with. -/
structure Within (x : Entry GameState GameAction GameEvent) (m : Moment) : Prop where
  step : MomentStep x m
  cards : ∀ card, m.before.tally card ≤ x.before.tally card
  descends : Descends x.before m.before

theorem within_of_before (h : MomentStep x m) (hm : m.before = x.before) : Within x m :=
  ⟨h, fun _ => by rw [hm], by rw [hm]; exact fun _ => descends_of_board rfl rfl⟩

/-- The leaves that run in a state with the cards and the Summons of the first. -/
theorem within_of_leaf {source : EffectSource} {targets : List Position}
    {leaves : List EffectLeaf} (hs : s.status = .playing)
    (hcards : ∀ card, s.tally card ≤ x.before.tally card) (hd : Descends x.before s)
    (hm : m ∈ leafMoments s source targets leaves) : Within x m := by
  obtain ⟨⟨_, hcause, hstep⟩, -, hkeeps, hdescends⟩ := mem_leafMoments hs hm
  refine ⟨.leaf hcause hstep, fun card => (hkeeps card).le.trans (hcards card), fun q p y hy => ?_⟩
  obtain ⟨r, z, hz, hzy⟩ := hdescends q p y hy
  obtain ⟨r', w, hw, hwz⟩ := hd q r z hz
  exact ⟨r', w, hw, hwz.trans hzy⟩

/-- **What a moment leaves in play** was there before, related by whatever the moment allows, or it is
put in play from a hand. -/
theorem MomentStep.tracks {R : PlayerId → BoardRel} (h : MomentStep x m)
    (stay : ∀ c p y, R c p y p y)
    (leaf : ∀ source targets leaf, m.cause = some (source, leaf) →
      LeafStep m.before source targets leaf m.after m.emitted → Carries R m.before m.after)
    (begun : ∀ c p ability targets hint y,
      x.input = some (.activateSkill c p ability targets hint) → m.before = x.before →
        R c p y p (Skills.exhaust y))
    (upgraded : ∀ c card p y ref, x.input = some (.upgradeSummon c card p) → m.before = x.before →
      R c p y p (Board.upgraded y ref))
    (action : ∀ a, x.input = some a → m.cause = none → ActionStep m.before a m.after m.emitted →
      (∀ c card slot, a ≠ .playSummon c card slot) → (∀ c card p, a ≠ .upgradeSummon c card p) →
        (∀ c p ability targets hint, a ≠ .activateSkill c p ability targets hint) →
          Carries R m.before m.after)
    (item : ∀ item work, executes x = some item → m.cause = none →
      ItemStep (poppedWork m.before work) item m.after m.emitted →
        (∀ c p ev ability effects, item = .fireTrigger c p ev ability →
          Triggers.abilityAt (poppedWork m.before work) c p ability ≠ some (false, effects)) →
            Carries R (poppedWork m.before work) m.after)
    {q : PlayerId} {r : Position} {z : SummonInstance}
    (hz : (m.after.player q).summonAt r = some z) :
    (∃ p y, (m.before.player q).summonAt p = some y ∧ R q p y r z) ∨
      ∃ card ∈ (m.before.player q).hand, z = Board.enteringSummon q card := by
  cases h with
  | leaf hcause hleaf => exact .inl (leaf _ _ _ hcause hleaf q r z hz)
  | aside _ hboards _ => exact .inl (carries_of_board (stay q) (hboards q).1 (hboards q).2 r z hz)
  | @begun c p ability targets hint y payment hinput hy =>
      exact .inl (skillBegun_carries stay _ hy
        (begun c p ability targets hint y hinput rfl) q r z hz)
  | @action t a hinput hst hskill =>
      by_cases hplay : ∃ c card slot, a = .playSummon c card slot
      · obtain ⟨c, card, slot, rfl⟩ := hplay
        generalize hes : x.emitted = emitted at hst
        cases hst with
        | @played _ _ _ ref hand _ _ _ hhand _ _ _ =>
            obtain ⟨rfl, rfl, rfl⟩ | ⟨-, hz⟩ :=
              summonAt_placed (p := .bench slot) (summonAt_hand (x.before.player c) hand) hz
            · exact .inr ⟨ref, hhand.mem.1, rfl⟩
            · exact .inl ⟨r, z, hz, stay q r z⟩
      · by_cases hupgrade : ∃ c card p, a = .upgradeSummon c card p
        · obtain ⟨c, card, p, rfl⟩ := hupgrade
          generalize hes : x.emitted = emitted at hst
          cases hst with
          | @upgraded _ _ _ y ref hand _ _ _ _ _ hy _ _ _ _ _ _ _ _ =>
              obtain ⟨rfl, rfl, rfl⟩ | ⟨-, hz⟩ :=
                summonAt_placed (summonAt_hand (x.before.player c) hand) hz
              · exact .inl ⟨r, y, hy, upgraded q card r y ref hinput rfl⟩
              · exact .inl ⟨r, z, hz, stay q r z⟩
        · simp only [not_exists] at hplay hupgrade
          exact .inl (action a hinput rfl hst hplay hupgrade hskill q r z hz)
  | item hitem hi hfire => exact .inl (item _ _ hitem rfl hi hfire q r z hz)

/-- A Skill begins with its payment and the exhaustion; what follows are its leaves. -/
theorem skillMoments_spec {c : PlayerId} {p : Position} {ability : EntityId}
    {targets : List Position} {hint : Option ManaType}
    (hinput : x.input = some (.activateSkill c p ability targets hint))
    (h : engine.Takes x t) :
    ∃ (y : SummonInstance) (payment : Payment) (ms : List Moment),
      (x.before.player c).summonAt p = some y ∧
        moments x = ⟨x.before, none, payment.events c ++ [.skillActivated c p ability],
          skillBegun x.before c p payment.bank y⟩ :: ms ∧
        Leads (skillBegun x.before c p payment.bank y) ms t ∧
        payment.events c ++ [.skillActivated c p ability] ++ ms.flatMap Moment.emitted =
          x.emitted ∧
        ∀ n ∈ ms, Within x n := by
  obtain ⟨hs, hst, -⟩ := accept_step (h.accept hinput)
  have hmoments : moments x = skillMoments x.before c p ability targets hint := by
    unfold moments
    rw [hinput]
  rw [hmoments]
  generalize x.emitted = emitted at hst
  cases hst with
  | @skill _ _ _ _ _ y top skill payment _ hy _ htop hskill _ hpay u es hl =>
      obtain ⟨hleads, hfacts⟩ := leafMoments_leads hl
      have hbegun : Carries (anywhere SameSummon) x.before (skillBegun x.before c p payment.bank y) :=
        skillBegun_carries (fun _ _ x => .refl x) _ hy ⟨rfl, rfl, rfl⟩
      refine ⟨y, payment, _, hy, ?_, hleads, ?_, fun n hn => ?_⟩
      · simp only [skillMoments, hy, htop, hskill, hpay]
        rfl
      · rw [hfacts, List.append_assoc]
        rfl
      · exact within_of_leaf (s := skillBegun x.before c p payment.bank y) hs
          (fun card => (skillBegun_keeps payment.bank hy card).le) hbegun hn

theorem stackMoments_spec {item : StackItem} {u : GameState} (hst : StackStep s item u t es)
    (hs : s.status = .playing) (hx : x.before = s) :
    Leads s (stackMoments s) t ∧
      (stackMoments s).flatMap Moment.emitted = .stackItemResolved item :: es ∧
        ∀ m ∈ stackMoments s, Within x m := by
  have hleaves := hst.leaves
  obtain ⟨hleads, hfacts⟩ := leafMoments_leads hleaves
  have hmoments : stackMoments s = ⟨s, none, [.stackItemResolved item], poppedStack s⟩ ::
      (leafMoments (poppedStack s) (itemLeaves (poppedStack s) item).1
        (itemLeaves (poppedStack s) item).2.1 (itemLeaves (poppedStack s) item).2.2 ++
          [⟨u, none, [], t⟩]) := by
    unfold stackMoments
    simp only [hst.top, hleaves, hst.result]
  have hpopped : ∀ card, (poppedStack s).tally card ≤ s.tally card := by
    intro card
    have := tally_poppedStack card hst.top
    omega
  have hkeeps := applyLeaves_keeps hleaves hs
  have hdescends : Carries (anywhere SameSummon) (poppedStack s) u :=
    applyLeaves_carries persistent_same hleaves hs
  subst hx
  rw [hmoments]
  refine ⟨?_, ?_, fun m hm => ?_⟩
  · refine .cons (m := ⟨x.before, _, _, poppedStack x.before⟩) (hleads.append ?_)
    exact .cons (m := ⟨u, _, [], t⟩) (.refl t)
  · simp [List.flatMap_append, hfacts]
  · rcases List.mem_cons.mp hm with rfl | hm
    · exact within_of_before (.aside rfl (fun q => ⟨rfl, rfl⟩) (by simp)) rfl
    · rcases List.mem_append.mp hm with hm | hm
      · exact within_of_leaf (s := poppedStack x.before) hs hpopped
          (fun q => descends_of_board rfl rfl) hm
      · rw [List.mem_singleton.mp hm]
        refine ⟨.aside rfl (fun q => ?_) (by simp), fun card => (hkeeps card).le.trans (hpopped card),
          hdescends⟩
        simp only [hst.result, closeSegment_player]
        rcases placeItem_player u item q with h | ⟨_, _, _, _, _, h | h⟩ <;> rw [h] <;>
          exact ⟨rfl, rfl⟩

theorem workMoments_spec {item : WorkItem} {work : List WorkItem} (hwork : s.work = item :: work)
    (hi : ItemStep (poppedWork s work) item t es) (hs : s.status = .playing)
    (hx : x = ⟨s, none, es⟩) (hitem : executes x = some item) :
    Leads s (workMoments s [⟨s, none, es, t⟩]) t ∧
      (workMoments s [⟨s, none, es, t⟩]).flatMap Moment.emitted = es ∧
        ∀ m ∈ workMoments s [⟨s, none, es, t⟩], Within x m := by
  subst hx
  -- the item fires a trigger at once, or it is one moment
  by_cases hfire : ∃ c p ev ability effects, item = .fireTrigger c p ev ability ∧
      Triggers.abilityAt (poppedWork s work) c p ability = some (false, effects)
  · obtain ⟨c, p, ev, ability, effects, rfl, ha⟩ := hfire
    have hmoments : workMoments s [⟨s, none, es, t⟩] =
        ⟨s, none, [.triggerFired c p ev ability], poppedWork s work⟩ ::
          leafMoments (poppedWork s work) (.trigger c p ability)
            (Triggers.implicitTargets p effects) effects := by
      unfold workMoments
      simp only [hwork, ha]
    rw [hmoments]
    cases hi with
    | unfired hn =>
        rw [ha] at hn
        cases hn
    | opened ho =>
        rw [ha] at ho
        cases ho
    | fired hf hl =>
        rw [ha] at hf
        cases hf
        obtain ⟨hleads, hfacts⟩ := leafMoments_leads hl
        refine ⟨.cons (m := ⟨s, _, _, poppedWork s work⟩) hleads, ?_, fun m hm => ?_⟩
        · simp [hfacts]
        · rcases List.mem_cons.mp hm with rfl | hm
          · exact within_of_before (.aside rfl (fun q => ⟨rfl, rfl⟩) (by simp)) rfl
          · exact within_of_leaf (s := poppedWork s work) hs (fun _ => le_rfl)
              (fun q => descends_of_board rfl rfl) hm
  · have hmoments : workMoments s [⟨s, none, es, t⟩] = [⟨s, none, es, t⟩] := by
      unfold workMoments
      split
      · rename_i c p ev ability work' heq
        rw [hwork] at heq
        obtain ⟨rfl, rfl⟩ := List.cons.inj heq
        split
        · rename_i effects ha
          exact absurd ⟨c, p, ev, ability, effects, rfl, ha⟩ hfire
        · rfl
      · rfl
    rw [hmoments]
    refine ⟨.cons (m := ⟨s, _, es, t⟩) (.refl t), by simp, fun m hm => ?_⟩
    rw [List.mem_singleton.mp hm]
    refine within_of_before (.item hitem hi (fun c p ev ability effects heq ha => ?_)) rfl
    exact hfire ⟨c, p, ev, ability, effects, heq, ha⟩

/-- **The moments of a step** lead from its beginning to its end, report what it reports, and each is
one of the listed things. -/
theorem moments_spec (h : engine.Takes x t) :
    Leads x.before (moments x) t ∧ (moments x).flatMap Moment.emitted = x.emitted ∧
      ∀ m ∈ moments x, Within x m := by
  cases hinput : x.input with
  | none =>
      have hn : Resolution.drainStep x.before = some (t, x.emitted) := h.next hinput
      obtain ⟨hd, ⟨item, u, es', hst, hes⟩ | ⟨hlow, item, work, hwork, hi⟩⟩ := drainStep_cases hn
      · have hmoments : moments x = stackMoments x.before := by
          unfold moments Resolution.stackHasUnresolvedItems
          rw [hinput]
          simp [hst.above]
        rw [hmoments, hes]
        exact stackMoments_spec hst hd.playing rfl
      · have hmoments : moments x = workMoments x.before [⟨x.before, none, x.emitted, t⟩] := by
          have hnext : engine.next x.before = some (t, x.emitted) := hn
          unfold moments Resolution.stackHasUnresolvedItems
          rw [hinput, hnext]
          simp [Nat.not_lt.mpr hlow]
        rw [hmoments]
        refine workMoments_spec hwork hi hd.playing ?_
          (executes_eq_some.mpr ⟨hinput, nextWork_of_low hlow hwork⟩)
        rw [← hinput]
  | some a =>
      by_cases hskill : ∃ c p ability targets hint, a = .activateSkill c p ability targets hint
      · obtain ⟨c, p, ability, targets, hint, rfl⟩ := hskill
        obtain ⟨y, payment, ms, hy, hmoments, hleads, hfacts, hwithin⟩ := skillMoments_spec hinput h
        rw [hmoments]
        refine ⟨.cons (m := ⟨x.before, _, _, skillBegun x.before c p payment.bank y⟩) hleads, hfacts,
          fun m hm => ?_⟩
        rcases List.mem_cons.mp hm with rfl | hm
        · exact within_of_before (.begun hinput hy) rfl
        · exact hwithin m hm
      · have ha := h.accept hinput
        obtain ⟨-, hst, -⟩ := accept_step ha
        have hmoments : moments x = [⟨x.before, none, x.emitted, t⟩] := by
          unfold moments
          rw [hinput]
          cases a with
          | activateSkill c p ability targets hint => exact absurd ⟨_, _, _, _, _, rfl⟩ hskill
          | _ =>
              simp only [ha]
              rfl
        rw [hmoments]
        refine ⟨.cons (m := ⟨x.before, _, x.emitted, t⟩) (.refl t), by simp, fun m hm => ?_⟩
        rw [List.mem_singleton.mp hm]
        refine within_of_before (.action hinput hst (fun c p ability targets hint heq => ?_)) rfl
        exact hskill ⟨c, p, ability, targets, hint, heq⟩

end

end Summoners
