import Mathlib.Data.List.Perm.Subperm
import Summoners.Proof.Rest
import Summoners.Steps.Facts

/-! # The order of the Stack and its consequences

Whether the consequences of one Stack item are settled before the item below it resolves. The loop
looks at the Stack first, so they are exactly where an item that resolves above another one queues
nothing; `topQueues` reads off the state before whether it does.
-/

namespace Summoners
set_option autoImplicit false

open Effects RunToCompletion

/-! ## Which leaves queue work -/

/-- Whether a leaf, run now, would queue a consequence: it hits somebody or moves somebody. -/
def queuesWork (s : GameState) (source : EffectSource) (targets : List Position) :
    EffectLeaf → Bool
  | .dealDamage _ =>
      match targets with
      | position :: _ => ((s.player source.controller.opponent).summonAt position).isSome
      | [] => false
  | .moveSummon =>
      match targets with
      | .bench fromSlot :: .bench toSlot :: _ =>
          ((s.player source.controller).bench.get toSlot).isNone &&
            ((s.player source.controller).bench.get fromSlot).isSome
      | _ => false
  | .swapPositions =>
      match targets with
      | .bench slot :: _ =>
          (s.player source.controller).main.isSome &&
            ((s.player source.controller).bench.get slot).isSome
      | _ => false
  | .swapOpposingPositions =>
      match targets with
      | .bench slot :: _ =>
          (s.player source.controller.opponent).main.any (fun x =>
            !x.durationMarkers.contains .cannotBeMovedByOpponent) &&
            ((s.player source.controller.opponent).bench.get slot).isSome
      | _ => false
  | _ => false

/-- Whether the item on top of the Stack would queue a consequence. -/
def topQueues (s : GameState) : Bool :=
  match s.stack.getLast? with
  | none => false
  | some item =>
      (itemLeaves (poppedStack s) item).2.2.any
        (queuesWork s (itemLeaves (poppedStack s) item).1 (itemLeaves (poppedStack s) item).2.1)

/-- What a leaf that queues nothing leaves as it was: the opposing board, and who is where on the
controller's own. -/
structure Calm (source : EffectSource) (s t : GameState) : Prop where
  opposing : t.player source.controller.opponent = s.player source.controller.opponent
  seats : ∀ p, ((t.player source.controller).summonAt p).isSome =
    ((s.player source.controller).summonAt p).isSome
  work : t.work = s.work

section
variable {s t u : GameState} {source : EffectSource} {targets : List Position} {leaf : EffectLeaf}
  {leaves : List EffectLeaf} {es : List GameEvent}

theorem Calm.refl (s : GameState) : Calm source s s := ⟨rfl, fun _ => rfl, rfl⟩

theorem Calm.main (h : Calm source s t) :
    (t.player source.controller).main.isSome = (s.player source.controller).main.isSome :=
  h.seats .main

theorem Calm.bench (h : Calm source s t) (slot : BenchSlot) :
    ((t.player source.controller).bench.get slot).isSome =
      ((s.player source.controller).bench.get slot).isSome :=
  h.seats (.bench slot)

/-- Leaves that queue nothing do not change which leaves would. -/
theorem Calm.queuesWork (h : Calm source s t) (leaf : EffectLeaf) :
    queuesWork t source targets leaf = queuesWork s source targets leaf := by
  cases leaf with
  | dealDamage _ => simp only [Summoners.queuesWork, h.opposing]
  | moveSummon =>
      have hnone : ∀ slot, ((t.player source.controller).bench.get slot).isNone =
          ((s.player source.controller).bench.get slot).isNone := by
        intro slot
        rw [← Option.not_isSome, ← Option.not_isSome, h.bench]
      simp only [Summoners.queuesWork, h.bench, hnone]
  | swapPositions => simp only [Summoners.queuesWork, h.main, h.bench]
  | swapOpposingPositions => simp only [Summoners.queuesWork, h.opposing]
  | _ => rfl

/-- A write to the controller that keeps every seat as it was. -/
theorem Calm.write {ps : PlayerState}
    (h : ∀ p, (ps.summonAt p).isSome = ((s.player source.controller).summonAt p).isSome) :
    Calm source s (s.setPlayer source.controller ps) := by
  refine ⟨GameState.player_setPlayer_opponent _ _ _, fun p => ?_, rfl⟩
  rw [GameState.player_setPlayer_self]
  exact h p

/-- A leaf queues nothing, or it hits or moves somebody. -/
theorem LeafStep.calm (h : LeafStep s source targets leaf t es) :
    Calm source s t ∨ ∃ item rest, t.work = s.work ++ item :: rest := by
  cases h with
  | quiet _ => exact .inl (.refl s)
  | @touched p x y _ hx _ _ _ =>
      refine .inl (.write (fun q => ?_))
      by_cases hq : q = p
      · rw [hq, PlayerState.summonAt_setAt_self, hx]
        rfl
      · rw [PlayerState.summonAt_setAt_of_ne _ _ _ hq]
  | hit _ _ _ _ => exact .inr ⟨_, [], rfl⟩
  | zones hz _ =>
      refine .inl (.write (fun p => ?_))
      cases p with
      | main => rw [PlayerState.summonAt_main, PlayerState.summonAt_main, hz.main]
      | bench slot => rw [PlayerState.summonAt_bench, PlayerState.summonAt_bench, hz.bench]
  | @drewOut ps _ hz _ =>
      have hwrite : Calm source s (s.setPlayer source.controller ps) := by
        refine .write (fun p => ?_)
        cases p with
        | main => rw [PlayerState.summonAt_main, PlayerState.summonAt_main, hz.main]
        | bench slot => rw [PlayerState.summonAt_bench, PlayerState.summonAt_bench, hz.bench]
      exact .inl ⟨hwrite.opposing, hwrite.seats, hwrite.work⟩
  | moved _ _ _ _ => exact .inr ⟨_, _, rfl⟩
  | exchanged _ _ _ _ => exact .inr ⟨_, _, rfl⟩
  | @produced p m _ _ =>
      refine .inl (.write (fun q => ?_))
      cases m <;> rfl
  | paused _ _ => exact .inl ⟨rfl, fun _ => rfl, rfl⟩

/-! ## One leaf -/

theorem dealDamage_queues (effect : DamageEffect) :
    (applyLeaf s source targets (.dealDamage effect)).1.work = s.work ↔
      queuesWork s source targets (.dealDamage effect) = false := by
  cases targets with
  | nil => simp [applyLeaf, dealDamage, queuesWork]
  | cons p rest =>
      simp only [applyLeaf, dealDamage, Damage.commit, Damage.evaluate, queuesWork]
      cases hx : (s.player source.controller.opponent).summonAt p <;> simp

theorem moveSummon_queues :
    (applyLeaf s source targets .moveSummon).1.work = s.work ↔
      queuesWork s source targets .moveSummon = false := by
  simp only [applyLeaf, moveSummon, queuesWork]
  split
  · rename_i fromSlot toSlot rest
    cases hto : (s.player source.controller).bench.get toSlot with
    | some y => simp [hto]
    | none =>
        cases hfrom : (s.player source.controller).bench.get fromSlot <;> simp [hto, hfrom]
  · simp

theorem swapPositions_queues :
    (applyLeaf s source targets .swapPositions).1.work = s.work ↔
      queuesWork s source targets .swapPositions = false := by
  simp only [applyLeaf, swapPositions, queuesWork]
  split
  · rename_i slot rest
    cases hmain : (s.player source.controller).main with
    | none => simp
    | some x =>
        cases hbench : (s.player source.controller).bench.get slot <;>
          simp [hbench, swapBoard, exchangeSteps]
  · simp

theorem swapOpposingPositions_queues :
    (applyLeaf s source targets .swapOpposingPositions).1.work = s.work ↔
      queuesWork s source targets .swapOpposingPositions = false := by
  simp only [applyLeaf, swapOpposingPositions, queuesWork]
  split
  · rename_i slot rest
    cases hmain : (s.player source.controller.opponent).main with
    | none => simp
    | some x =>
        by_cases hmark : .cannotBeMovedByOpponent ∈ x.durationMarkers
        · simp [hmark]
        · cases hbench : (s.player source.controller.opponent).bench.get slot <;>
            simp [hmark, hbench, swapBoard, exchangeSteps]
  · simp

/-- **One leaf** queues a consequence exactly where `queuesWork` says so. -/
theorem applyLeaf_queues (leaf : EffectLeaf) :
    (applyLeaf s source targets leaf).1.work = s.work ↔
      queuesWork s source targets leaf = false := by
  have hstep := applyLeaf_step s source targets leaf
  cases leaf with
  | dealDamage effect => exact dealDamage_queues effect
  | moveSummon => exact moveSummon_queues
  | swapPositions => exact swapPositions_queues
  | swapOpposingPositions => exact swapOpposingPositions_queues
  | _ =>
      refine iff_of_true ?_ rfl
      generalize (applyLeaf s source targets _).1 = t at hstep
      generalize (applyLeaf s source targets _).2 = es at hstep
      cases hstep with
      | hit _ _ _ hleaf => obtain ⟨_, hleaf⟩ := hleaf; cases hleaf
      | moved _ _ hleaf _ => cases hleaf
      | exchanged _ _ hleaf _ => rcases hleaf with ⟨hleaf, -⟩ | ⟨hleaf, -⟩ <;> cases hleaf
      | _ => rfl

/-! ## One item -/

/-- **The leaves of one item**, where they all run: they leave work as it was exactly where none of
them would have queued anything at the start. -/
theorem applyLeaves_queues (h : applyLeaves s source targets leaves = (t, es))
    (hs : s.status = .playing) (ht : t.status = .playing) :
    t.work = s.work ↔ leaves.any (queuesWork s source targets) = false := by
  induction leaves generalizing s es with
  | nil =>
      cases h
      simp
  | cons leaf leaves ih =>
      have hleaf : (applyLeaf s source targets leaf).1.work = s.work ↔
          queuesWork s source targets leaf = false := applyLeaf_queues leaf
      have hcalm := (applyLeaf_step s source targets leaf).calm
      unfold applyLeaves at h
      simp only at h
      split at h
      · rename_i hplaying
        rw [GameStatus.isPlaying_iff] at hplaying
        obtain ⟨added, hadded, -⟩ := (applyLeaves_frame rfl hplaying :
          LeafFrame _ (applyLeaves (applyLeaf s source targets leaf).1 source targets leaves).1).work
        cases h
        rcases hcalm with hcalm | ⟨item, rest, hwork⟩
        · have hrest := ih rfl hplaying
          have hsame : leaves.any (queuesWork (applyLeaf s source targets leaf).1 source targets) =
              leaves.any (queuesWork s source targets) :=
            congrArg leaves.any (funext hcalm.queuesWork)
          rw [hcalm.work, hsame] at hrest
          rw [List.any_cons, hleaf.mp hcalm.work, Bool.false_or]
          exact hrest
        · have hqueues : queuesWork s source targets leaf = true := by
            rw [← Bool.not_eq_false, ← hleaf, hwork]
            simp
          rw [List.any_cons, hqueues, Bool.true_or, hadded, hwork]
          simp
      · rename_i hover
        rw [h, GameStatus.isPlaying_iff] at hover
        exact absurd ht hover

/-- **A Stack item that resolves in a match that goes on** leaves work as it was exactly where
`topQueues` says so. -/
theorem StackStep.queues {item : StackItem} (h : StackStep s item u t es) (hd : Draining s)
    (ht : t.status = .playing) : t.work = s.work ↔ topQueues s = false := by
  have hu : u.status = .playing := by
    rw [h.result, closeSegment_status, placeItem_status] at ht
    exact ht
  have hwork : t.work = u.work := by rw [h.result, closeSegment_work, placeItem_work]
  have hleaves := applyLeaves_queues h.leaves hd.playing hu
  unfold topQueues
  rw [h.top, hwork]
  exact hleaves

/-! ## One drain run -/

/-- A step that resolves a Stack item. -/
def Resolves (x : Entry GameState GameAction GameEvent) : Prop :=
  x.input = none ∧ Resolution.stackHasUnresolvedItems x.before = true

/-- What one iteration of the drain puts at the end of work. -/
def queuedBy (s : GameState) : List WorkItem :=
  match Resolution.drainStep s with
  | none => []
  | some (t, _) => t.work.drop s.work.length

/-- Resolving an item queues behind what is in work, and the Stack step is there to read off. -/
theorem Resolves.step {x : Entry GameState GameAction GameEvent} (hx : Resolves x)
    (h : engine.Takes x t) : Draining x.before ∧ t.work = x.before.work ++ queuedBy x.before ∧
      ∃ item u es, StackStep x.before item u t es := by
  have hn : Resolution.drainStep x.before = some (t, x.emitted) := h.next hx.1
  obtain ⟨hd, ⟨item, u, es, hst, -⟩ | ⟨hlow, -⟩⟩ := drainStep_cases hn
  · obtain ⟨added, hadded, -⟩ := (applyLeaves_frame hst.leaves hd.playing).work
    have hwork : t.work = x.before.work ++ added := by
      rw [hst.result, closeSegment_work, placeItem_work, hadded]
      rfl
    refine ⟨hd, ?_, item, u, es, hst⟩
    simp [queuedBy, hn, hwork]
  · have habove := hx.2
    unfold Resolution.stackHasUnresolvedItems at habove
    rw [decide_eq_true_eq] at habove
    omega

/-- Executing work leaves nothing on the Stack, or stops the drain. -/
theorem Coherent.settled (h : Coherent s) (hn : Resolution.drainStep s = some (t, es))
    (hlow : Resolution.stackHasUnresolvedItems s = false) :
    Resolution.stackHasUnresolvedItems t = false ∨ Resolution.drainStep t = none := by
  unfold Resolution.stackHasUnresolvedItems at hlow
  rw [decide_eq_false_iff_not, Nat.not_lt] at hlow
  obtain ⟨hstack, hbases⟩ := h.drained hlow
  have hempty : ∀ u : GameState, u.stack = [] → Resolution.stackHasUnresolvedItems u = false := by
    intro u hu
    unfold Resolution.stackHasUnresolvedItems
    rw [hu]
    rfl
  obtain ⟨hd, ⟨item, u, es', hst, rfl⟩ | ⟨-, item, work, hwork, hi⟩⟩ := drainStep_cases hn
  · have habove := hst.above
    omega
  · rcases (hi.frame hd.playing).stack with ⟨-, -, hst, -⟩ | ⟨-, rfl⟩ | ⟨_, _, _, _, _, -, rfl⟩
    · exact .inl (hempty t (hst.trans hstack))
    · exact .inl (hempty _ hstack)
    · right
      simp [Resolution.drainStep]

/-- Once a drain run executes work, it resolves no Stack item any more. -/
theorem not_resolves_of_executed {x y : Entry GameState GameAction GameEvent}
    {mid : List (Entry GameState GameAction GameEvent)}
    (hchain : (x :: (mid ++ [y])).IsChain engine.Linked)
    (hc : ∀ z ∈ x :: (mid ++ [y]), Coherent z.before) (hx : x.input = none)
    (hlow : Resolution.stackHasUnresolvedItems x.before = false)
    (hmid : ∀ z ∈ mid, z.input = none) : ¬Resolves y := by
  induction mid generalizing x with
  | nil =>
      rintro ⟨hy, habove⟩
      obtain ⟨⟨hxy, t, hyt⟩, -⟩ := List.isChain_cons_cons.mp hchain
      rcases (hc x List.mem_cons_self).settled (hxy.next hx) hlow with hlow' | hrest
      · rw [hlow'] at habove
        cases habove
      · have hn := hyt.next hy
        rw [show engine.next y.before = none from hrest] at hn
        cases hn
  | cons z mid ih =>
      obtain ⟨⟨hxz, t, hzt⟩, htail⟩ := List.isChain_cons_cons.mp hchain
      have hz : z.input = none := hmid z List.mem_cons_self
      rcases (hc x List.mem_cons_self).settled (hxz.next hx) hlow with hlow' | hrest
      · exact ih htail (fun w hw => hc w (List.mem_cons_of_mem _ hw)) hz hlow'
          (fun w hw => hmid w (List.mem_cons_of_mem _ hw))
      · have hn := hzt.next hz
        rw [show engine.next z.before = none from hrest] at hn
        cases hn

/-- Between two Stack items of one drain run, only Stack items resolve. -/
theorem resolves_between {x y : Entry GameState GameAction GameEvent}
    {mid : List (Entry GameState GameAction GameEvent)}
    (hchain : (x :: (mid ++ [y])).IsChain engine.Linked)
    (hc : ∀ z ∈ x :: (mid ++ [y]), Coherent z.before) (hy : Resolves y)
    (hmid : ∀ z ∈ mid, z.input = none) : ∀ z ∈ mid, Resolves z := by
  intro z hz
  obtain ⟨front, back, rfl⟩ := List.append_of_mem hz
  refine ⟨hmid z hz, ?_⟩
  by_contra hlow
  rw [Bool.not_eq_true] at hlow
  have hwithin : z :: (back ++ [y]) <:+: x :: (front ++ z :: back ++ [y]) :=
    ⟨x :: front, [], by simp⟩
  have hpart := List.IsChain.infix hchain hwithin
  exact not_resolves_of_executed hpart (fun w hw => hc w (hwithin.subset hw))
    (hmid z hz) hlow (fun w hw => hmid w (by simp [hw])) hy

/-! ## The property and the condition -/

def hasCheck (work : List WorkItem) : Bool :=
  work.any (fun
    | .destructionCheck _ => true
    | _ => false)

theorem hasCheck_eq_false {work : List WorkItem} :
    hasCheck work = false ↔ ∀ p, WorkItem.destructionCheck p ∉ work := by
  unfold hasCheck
  rw [List.any_eq_false]
  constructor
  · intro h p hp
    exact h _ hp rfl
  · intro h item hi
    cases item with
    | destructionCheck p => exact absurd hi (h p)
    | _ => exact Bool.false_ne_true

/-- The Stack item of `x` is done with, once the steps of `mid` have been taken, when `y` resolves
an item below it. -/
structure DoneBefore (x : Entry GameState GameAction GameEvent)
    (mid : List (Entry GameState GameAction GameEvent))
    (y : Entry GameState GameAction GameEvent) : Prop where
  /-- All the work it has queued has been executed. -/
  executed : (queuedBy x.before).Subperm (mid.filterMap executes)
  /-- So has all the work this has led to: what is left had been waiting before. -/
  finished : y.before.work <:+ x.before.work
  unchecked : ∀ p, WorkItem.destructionCheck p ∉ y.before.work

/-- Each Stack item is done with before a later one of its drain run resolves. A drain run is what
lies between two actions: it stops for a decision, a window or the end of the match. -/
def ItemByItem (tr : List (Entry GameState GameAction GameEvent)) : Prop :=
  ∀ x mid y, x :: (mid ++ [y]) <:+: tr → Resolves x → Resolves y →
    (∀ z ∈ mid, z.input = none) → DoneBefore x mid y

/-- Where two Stack items resolve one right after the other, the first one neither queues anything
nor resolves with a destruction check in work. -/
def Undisturbed (x y : Entry GameState GameAction GameEvent) : Prop :=
  Resolves x → Resolves y → topQueues x.before = false ∧ hasCheck x.before.work = false

instance : DecidablePred Resolves := fun _ => inferInstanceAs (Decidable (_ ∧ _))

instance : DecidableRel Undisturbed := fun _ _ => inferInstanceAs (Decidable (_ → _ → _ ∧ _))

/-- One Stack item right after another one. -/
theorem Resolves.work_iff {x y : Entry GameState GameAction GameEvent} (hx : Resolves x)
    (hy : Resolves y) (hxy : engine.Linked x y) :
    (queuedBy x.before = [] ↔ topQueues x.before = false) ∧
      y.before.work = x.before.work ++ queuedBy x.before := by
  obtain ⟨htakes, t, hyt⟩ := hxy
  obtain ⟨hd, hwork, item, u, es, hst⟩ := hx.step htakes
  refine ⟨?_, hwork⟩
  rw [← hst.queues hd (hy.step hyt).1.playing, hwork]
  simp

/-- Undisturbed items leave work as it was. -/
theorem work_of_undisturbed {x y : Entry GameState GameAction GameEvent}
    {mid : List (Entry GameState GameAction GameEvent)}
    (hchain : (x :: (mid ++ [y])).IsChain engine.Linked)
    (hu : (x :: (mid ++ [y])).IsChain Undisturbed)
    (hr : ∀ z ∈ x :: (mid ++ [y]), Resolves z) :
    queuedBy x.before = [] ∧ y.before.work = x.before.work ∧ hasCheck y.before.work = false := by
  have hx := hr x List.mem_cons_self
  induction mid generalizing x with
  | nil =>
      have hy := hr y (by simp)
      obtain ⟨hlinked, -⟩ := List.isChain_cons_cons.mp hchain
      obtain ⟨hquiet, -⟩ := List.isChain_cons_cons.mp hu
      obtain ⟨htop, hcheck⟩ := hquiet hx hy
      obtain ⟨hiff, hwork⟩ := hx.work_iff hy hlinked
      have hnone := hiff.mpr htop
      rw [hnone, List.append_nil] at hwork
      rw [hwork]
      exact ⟨hnone, rfl, hcheck⟩
  | cons z mid ih =>
      have hz := hr z (by simp)
      obtain ⟨hlinked, htail⟩ := List.isChain_cons_cons.mp hchain
      obtain ⟨hquiet, hutail⟩ := List.isChain_cons_cons.mp hu
      obtain ⟨-, hsame, hcheck⟩ :=
        ih htail hutail (fun w hw => hr w (List.mem_cons_of_mem _ hw)) hz
      obtain ⟨hiff, hwork⟩ := hx.work_iff hz hlinked
      have hnone := hiff.mpr (hquiet hx hz).1
      rw [hnone, List.append_nil] at hwork
      exact ⟨hnone, hsame.trans hwork, hcheck⟩

/-- Where each item is done with in time, neighbouring items are undisturbed. -/
theorem ItemByItem.undisturbed {tr : List (Entry GameState GameAction GameEvent)}
    (h : ItemByItem tr) (hchain : tr.IsChain engine.Linked) : tr.IsChain Undisturbed := by
  refine (List.isChain_isInfix tr).imp (fun x y hwithin hx hy => ?_)
  have hdone := h x [] y hwithin hx hy (by simp)
  have hpair := List.IsChain.infix hchain hwithin
  have hlinked : engine.Linked x y := List.isChain_pair.mp hpair
  obtain ⟨hiff, hwork⟩ := hx.work_iff hy hlinked
  have hnone : queuedBy x.before = [] := List.subperm_nil.mp hdone.executed
  refine ⟨hiff.mp hnone, hasCheck_eq_false.mpr ?_⟩
  rw [hnone, List.append_nil] at hwork
  rw [← hwork]
  exact hdone.unchecked

theorem itemByItem_of_undisturbed {tr : List (Entry GameState GameAction GameEvent)}
    (hchain : tr.IsChain engine.Linked) (hc : ∀ x ∈ tr, Coherent x.before)
    (hu : tr.IsChain Undisturbed) : ItemByItem tr := by
  intro x mid y hwithin hx hy hmid
  have hlinked := List.IsChain.infix hchain hwithin
  have hbetween := resolves_between hlinked (fun z hz => hc z (hwithin.subset hz)) hy hmid
  have hall : ∀ z ∈ x :: (mid ++ [y]), Resolves z := by
    intro z hz
    rcases List.mem_cons.mp hz with rfl | hz
    · exact hx
    · rcases List.mem_append.mp hz with hz | hz
      · exact hbetween z hz
      · rw [List.mem_singleton.mp hz]
        exact hy
  have hquiet := List.IsChain.infix hu hwithin
  obtain ⟨hnone, hwork, hcheck⟩ := work_of_undisturbed hlinked hquiet hall
  refine ⟨?_, ?_, hasCheck_eq_false.mp hcheck⟩
  · exact hnone ▸ List.nil_subperm
  · exact hwork ▸ List.suffix_refl _

end

/-- **The Stack resolves item by item** over exactly the runs in which no item that resolves right
above another one queues anything, or finds a destruction check in work. -/
theorem item_by_item_iff {cards : CardSet} {scenario : Scenario} {start s : GameState}
    {tr : List (Entry GameState GameAction GameEvent)}
    (hstart : fromScenario cards scenario = .ok start) (hr : engine.Run start tr s) :
    ItemByItem tr ↔ tr.IsChain Undisturbed := by
  have hopen := opening_of_fromScenario hstart
  have hchain := hr.linked hopen.rest
  constructor
  · intro h
    exact h.undisturbed hchain
  · intro hu
    exact itemByItem_of_undisturbed hchain (hopen.run_coherent hr).2 hu

open Fixtures in
/-- A lethal Spell above an Attack: the Attack still resolves, with the check of the Spell in
work. -/
theorem not_item_by_item :
    ∃ start tr s, fromScenario answers (answered 2) = .ok start ∧ engine.Run start tr s ∧
      ¬ItemByItem tr := by
  have hdemo : (demoTrace answers (answered 2) answer).map (fun r =>
      decide (r.2.1.IsChain (fun x y => Resolves x → Resolves y → hasCheck y.before.work = false))) =
        some false := by decide +kernel
  obtain ⟨⟨start, tr, s⟩, hr, hv⟩ := Option.map_eq_some_iff.mp hdemo
  obtain ⟨hstart, hrun⟩ := run_of_demoTrace hr
  refine ⟨start, tr, s, hstart, hrun, fun h => of_decide_eq_false hv ?_⟩
  refine (List.isChain_isInfix tr).imp (fun x y hwithin hx hy => ?_)
  exact hasCheck_eq_false.mpr (h x [] y hwithin hx hy (by simp)).unchecked

open Fixtures in
/-- A Spell that only readies its caster's Main above an Attack. -/
theorem item_by_item_iff_readied :
    ∃ start tr s, engine.Run start tr s ∧ (∃ x mid y, x :: (mid ++ [y]) <:+: tr ∧ Resolves x ∧
      Resolves y) ∧ ItemByItem tr := by
  have hdemo : (demoTrace answers (answered 3) answer).map (fun r =>
      decide (r.2.1.IsChain Undisturbed ∧
        ¬r.2.1.IsChain (fun x y => ¬(Resolves x ∧ Resolves y)))) = some true := by decide +kernel
  obtain ⟨⟨start, tr, s⟩, hr, hv⟩ := Option.map_eq_some_iff.mp hdemo
  obtain ⟨hu, htwo⟩ := of_decide_eq_true hv
  obtain ⟨hstart, hrun⟩ := run_of_demoTrace hr
  refine ⟨start, tr, s, hrun, ?_, (item_by_item_iff hstart hrun).mpr hu⟩
  by_contra hnone
  refine htwo ((List.isChain_isInfix tr).imp (fun x y hwithin hboth => hnone ?_))
  exact ⟨x, [], y, hwithin, hboth⟩

end Summoners
