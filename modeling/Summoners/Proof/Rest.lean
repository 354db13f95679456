import Summoners.Fixtures
import Summoners.Steps.Frames
import Summoners.Steps.Opening

/-! # Rest coherence

The invariant `apply`, the drain, `pass` and `handover` rely on: who may act is one of a decision, a
window or the active player, the open segments nest properly, and Upkeep keeps its last step queued.
It holds before every step of a run, and where a run rests it leaves nothing unresolved.
-/

namespace Summoners
set_option autoImplicit false

open Effects RunToCompletion

structure Coherent (s : GameState) : Prop where
  increasing : s.stackSegmentBases.Pairwise (· < ·)
  below : ∀ b ∈ s.stackSegmentBases, b < s.stack.length
  oneDecision : s.pending.isSome = true → s.turn.window = none
  upkeep : s.turn.phase = .upkeep → .beginMainPhase ∈ s.work
  finished : s.turn.window.isSome = true → s.stack = [] → s.work = []

section
variable {s t u : GameState} {es : List GameEvent}

/-! ## Segments -/

theorem Coherent.bases_of_stack (h : Coherent s) (hs : s.stack = []) :
    s.stackSegmentBases = [] := by
  rw [List.eq_nil_iff_forall_not_mem]
  intro b hb
  have := h.below b hb
  rw [hs] at this
  cases this

/-- Where the Stack is drained down to its segment, it is empty: work never runs inside a segment. -/
theorem Coherent.drained (h : Coherent s) (hs : s.stack.length ≤ Stack.segmentBase s) :
    s.stack = [] ∧ s.stackSegmentBases = [] := by
  have hstack : s.stack = [] := by
    unfold Stack.segmentBase at hs
    cases hb : s.stackSegmentBases.getLast? with
    | none =>
        rw [hb] at hs
        exact List.length_eq_zero_iff.mp (Nat.le_zero.mp hs)
    | some b =>
        have hlt := h.below b (List.mem_of_getLast? hb)
        rw [hb] at hs
        have hge : s.stack.length ≤ b := hs
        omega
  exact ⟨hstack, h.bases_of_stack hstack⟩

/-- All bases but the last lie below the last. -/
theorem lt_of_mem_dropLast {bases : List ℕ} (h : bases.Pairwise (· < ·)) {last b : ℕ}
    (hlast : bases.getLast? = some last) (hb : b ∈ bases.dropLast) : b < last := by
  obtain ⟨front, rfl⟩ := List.getLast?_eq_some_iff.mp hlast
  rw [List.dropLast_concat] at hb
  exact (List.pairwise_append.mp h).2.2 b hb last (List.mem_singleton_self _)

/-- Popping the top and closing its segment where that empties it keeps every base below the
Stack. -/
theorem closeSegment_below {n : ℕ} (hinc : s.stackSegmentBases.Pairwise (· < ·))
    (hbelow : ∀ b ∈ s.stackSegmentBases, b < n + 1) (hlen : s.stack.length = n) :
    (Resolution.closeSegment s).stackSegmentBases.Pairwise (· < ·) ∧
      ∀ b ∈ (Resolution.closeSegment s).stackSegmentBases,
        b < (Resolution.closeSegment s).stack.length := by
  rw [closeSegment_stack, hlen]
  unfold Resolution.closeSegment
  split
  · rename_i hlast
    rw [hlen] at hlast
    exact ⟨hinc.sublist (List.dropLast_sublist _), fun b hb => lt_of_mem_dropLast hinc hlast hb⟩
  · rename_i hlast
    rw [hlen] at hlast
    refine ⟨hinc, fun b hb => ?_⟩
    cases hl : s.stackSegmentBases.getLast? with
    | none =>
        rw [List.getLast?_eq_none_iff] at hl
        rw [hl] at hb
        cases hb
    | some last =>
        rw [hl] at hlast
        have hmem := hbelow last (List.mem_of_getLast? hl)
        have hne : last ≠ n := fun h => hlast (by rw [h])
        obtain ⟨front, hfront⟩ := List.getLast?_eq_some_iff.mp hl
        rw [hfront] at hb
        rcases List.mem_append.mp hb with hb | hb
        · have := (List.pairwise_append.mp (hfront ▸ hinc)).2.2 b hb last (List.mem_singleton_self _)
          omega
        · rw [List.mem_singleton.mp hb]
          omega

/-! ## One step -/

/-- Steps inside the drain that keep the turn and the Stack, and lose no Main Phase step. -/
theorem Coherent.of_frame (h : Coherent s) (hw : s.turn.window = none) (hturn : t.turn = s.turn)
    (hstack : t.stack = s.stack) (hbases : t.stackSegmentBases = s.stackSegmentBases)
    (hwork : WorkItem.beginMainPhase ∈ s.work → WorkItem.beginMainPhase ∈ t.work) :
    Coherent t where
  increasing := by rw [hbases]; exact h.increasing
  below := by rw [hbases, hstack]; exact h.below
  oneDecision _ := by rw [hturn, hw]
  upkeep hp := hwork (h.upkeep (by rw [← hturn]; exact hp))
  finished hp := by rw [hturn, hw] at hp; cases hp

theorem Coherent.leaves (h : Coherent s) (hw : s.turn.window = none) (hf : LeafFrame s t) :
    Coherent t := by
  refine h.of_frame hw hf.turn hf.stack hf.bases (fun hm => ?_)
  obtain ⟨added, ha, -⟩ := hf.work
  rw [ha]
  exact List.mem_append_left _ hm

/-- Executing the front of work, in the state it has been popped from. -/
theorem Coherent.item {item : WorkItem} {work : List WorkItem} (h : Coherent s)
    (hd : Draining s) (hwork : s.work = item :: work)
    (hlow : s.stack.length ≤ Stack.segmentBase s)
    (hi : ItemStep (poppedWork s work) item t es) : Coherent t := by
  obtain ⟨hstack, hbases⟩ := h.drained hlow
  have hf := hi.frame hd.playing
  have hkeep : ∀ i, i ∈ work → i ∈ t.work := fun i hm => by
    obtain ⟨front, back, hfb⟩ := hf.work
    rw [hfb]
    exact List.mem_append_left _ (List.mem_append_right _ hm)
  rcases hf.stack with ⟨hne, hturn, hst, hb⟩ | ⟨rfl, rfl⟩ | ⟨c, p, ev, ability, effects, rfl, rfl⟩
  · refine h.of_frame hd.window hturn hst hb (fun hm => hkeep _ ?_)
    rw [hwork] at hm
    exact (List.mem_cons.mp hm).resolve_left (fun he => hne he.symm)
  · refine ⟨h.increasing, h.below, fun _ => hd.window, fun hp => (by cases hp), fun hw => ?_⟩
    have hwindow : s.turn.window.isSome = true := hw
    rw [hd.window] at hwindow
    cases hwindow
  · -- the segment opens over an empty Stack, with the base of its only item
    refine ⟨by simp [hbases], by simp [hbases, hstack], fun hp => ?_, fun hp => ?_, by simp⟩
    · have hpending : s.pending.isSome = true := hp
      rw [hd.pending] at hpending
      cases hpending
    · have hm := h.upkeep hp
      rw [hwork] at hm
      exact (List.mem_cons.mp hm).resolve_left (by simp)

theorem Coherent.pop {item : StackItem} (h : Coherent s) (hd : Draining s)
    (hst : StackStep s item u t es) : Coherent t := by
  have hf := applyLeaves_frame hst.leaves hd.playing
  have hturn : t.turn = s.turn := by rw [hst.result]; simpa using hf.turn
  have hlen : (placeItem u item).stack.length + 1 = s.stack.length := by
    obtain ⟨front, hfront⟩ := List.getLast?_eq_some_iff.mp hst.top
    rw [placeItem_stack, hf.stack, poppedStack, hfront]
    simp
  have hsegment := closeSegment_below (s := placeItem u item) (n := (placeItem u item).stack.length)
    (by rw [placeItem_bases, hf.bases]; exact h.increasing)
    (fun b hb => by
      rw [placeItem_bases, hf.bases] at hb
      rw [hlen]
      exact h.below b hb) rfl
  refine ⟨by rw [hst.result]; exact hsegment.1, by rw [hst.result]; exact hsegment.2,
    fun _ => by rw [hturn, hd.window], fun hp => ?_, fun hw => ?_⟩
  · obtain ⟨added, ha, -⟩ := hf.work
    have hm := h.upkeep (by rw [← hturn]; exact hp)
    rw [hst.result, closeSegment_work, placeItem_work, ha]
    exact List.mem_append_left _ hm
  · rw [hturn, hd.window] at hw
    cases hw

theorem Coherent.drainStep (h : Coherent s) (hn : Resolution.drainStep s = some (t, es)) :
    Coherent t := by
  obtain ⟨hd, ⟨item, u, es', hst, rfl⟩ | ⟨hlow, item, work, hwork, hi⟩⟩ := drainStep_cases hn
  · exact h.pop hd hst
  · exact h.item hd hwork hlow hi

/-! ## One action -/

/-- A state at rest with nobody asked and no window open has nothing left to resolve. -/
theorem Coherent.idle (h : Coherent s) (hs : s.status = .playing)
    (hrest : Resolution.drainStep s = none) (hp : s.pending = none) (hw : s.turn.window = none) :
    s.work = [] ∧ s.stack = [] ∧ s.stackSegmentBases = [] ∧ s.turn.phase ≠ .upkeep := by
  rcases drainStep_eq_none hrest with hr | hr | hr | ⟨hlow, hwork⟩
  · rw [hp] at hr
    cases hr
  · exact absurd hs hr
  · rw [hw] at hr
    cases hr
  · obtain ⟨hstack, hbases⟩ := h.drained hlow
    refine ⟨hwork, hstack, hbases, fun hphase => ?_⟩
    have := h.upkeep hphase
    rw [hwork] at this
    cases this

/-- An item put on the Stack under a new window. -/
theorem Coherent.pushed {item : StackItem} (h : Coherent s) (hp : t.pending = none)
    (hbases : t.stackSegmentBases = s.stackSegmentBases) (hstack : t.stack = s.stack ++ [item])
    (hphase : t.turn.phase = .upkeep → s.turn.phase = .upkeep) (hwork : t.work = s.work) :
    Coherent t where
  increasing := by rw [hbases]; exact h.increasing
  below b hb := by
    rw [hbases] at hb
    have := h.below b hb
    rw [hstack, List.length_append]
    omega
  oneDecision hd := by rw [hp] at hd; cases hd
  upkeep hu := by rw [hwork]; exact h.upkeep (hphase hu)
  finished _ hs := by rw [hstack] at hs; simp at hs

/-- A write to one player in a free Main Phase or under a decision, with work queued behind. -/
theorem Coherent.wrote (h : Coherent s) (hturn : t.turn.window = none)
    (hphase : t.turn.phase = s.turn.phase) (hstack : t.stack = s.stack)
    (hbases : t.stackSegmentBases = s.stackSegmentBases)
    (hwork : ∃ items, t.work = s.work ++ items) : Coherent t where
  increasing := by rw [hbases]; exact h.increasing
  below := by rw [hbases, hstack]; exact h.below
  oneDecision _ := hturn
  upkeep hp := by
    obtain ⟨items, hi⟩ := hwork
    rw [hi]
    exact List.mem_append_left _ (h.upkeep (by rw [← hphase]; exact hp))
  finished hp := by rw [hturn] at hp; cases hp

theorem Coherent.action {a : GameAction} (h : Coherent s) (hs : s.status = .playing)
    (hrest : Resolution.drainStep s = none) (ha : ActionStep s a t es) : Coherent t := by
  cases ha with
  | played free _ _ _ _ _ =>
      exact h.wrote free.window rfl rfl rfl ⟨[], by simp⟩
  | upgraded free _ _ _ _ _ _ _ _ _ =>
      exact h.wrote free.window rfl rfl rfl ⟨[], by simp⟩
  | cast hp _ _ _ _ _ => exact h.pushed hp rfl rfl id rfl
  | skill free _ _ _ _ _ _ hl =>
      refine Coherent.leaves ?_ ?_ (applyLeaves_frame hl hs)
      · exact h.wrote free.window rfl rfl rfl ⟨[], by simp⟩
      · exact free.window
  | retreated free _ _ _ =>
      exact h.wrote free.window rfl rfl rfl ⟨_, rfl⟩
  | attacked free _ _ _ _ =>
      exact h.pushed free.pending rfl rfl (fun hp => (by cases hp)) rfl
  | turnEnded hp hw hphase _ =>
      obtain ⟨hwork, hstack, hbases, -⟩ := h.idle hs hrest hp hw
      refine ⟨h.increasing, h.below, fun hd => ?_, h.upkeep, fun _ _ => hwork⟩
      have hpending : s.pending.isSome = true := hd
      rw [hp] at hpending
      cases hpending
  | passed hp hw =>
      refine ⟨h.increasing, h.below, fun hd => ?_, h.upkeep, fun _ => h.finished (by simp [hw])⟩
      have hpending : s.pending.isSome = true := hd
      rw [hp] at hpending
      cases hpending
  | passedToStack hp hw hstack =>
      exact ⟨h.increasing, h.below, fun _ => rfl, h.upkeep, fun hd => (by cases hd)⟩
  | handedOver hp hw hstack =>
      refine ⟨h.increasing, h.below, fun _ => rfl, fun _ => ?_, fun hd => (by cases hd)⟩
      simp [Turn.handover]
  | converted hp _ _ _ =>
      refine ⟨h.increasing, h.below, fun hd => h.oneDecision ?_, h.upkeep, h.finished⟩
      exact hd
  | manaChosen hp _ =>
      have hw := h.oneDecision (by rw [hp]; rfl)
      exact h.wrote hw rfl rfl rfl ⟨[], by simp⟩
  | promotionChosen hp _ =>
      have hw := h.oneDecision (by rw [hp]; rfl)
      exact h.wrote hw rfl rfl rfl ⟨[], by simp⟩
  | prizeChosen hp _ =>
      have hw := h.oneDecision (by rw [hp]; rfl)
      exact h.wrote hw rfl rfl rfl ⟨[], by simp⟩
  | resigned => exact ⟨h.increasing, h.below, h.oneDecision, h.upkeep, h.finished⟩

/-! ## Runs -/

theorem Opening.coherent {cards : CardSet} (h : Opening cards s) : Coherent s := by
  refine ⟨by simp [h.bases], by simp [h.bases], fun _ => h.window, fun hp => ?_, fun hw => ?_⟩
  · rw [h.phase] at hp
    cases hp
  · rw [h.window] at hw
    cases hw

/-- Every state before a step of a run from a scenario is coherent, and so is the last one. -/
theorem Opening.run_coherent {cards : CardSet} {start : GameState}
    {tr : List (Entry GameState GameAction GameEvent)} (h : Opening cards start)
    (hr : engine.Run start tr s) : Coherent s ∧ ∀ x ∈ tr, Coherent x.before := by
  have haccept : ∀ {s t : GameState} {a : GameAction} {es : List GameEvent}, Coherent s →
      engine.next s = none → engine.accept s a = some (t, es) → Coherent t := by
    intro s t a es hc hrest ha
    obtain ⟨hs, hst, -⟩ := accept_step ha
    exact hc.action hs hrest hst
  exact ⟨hr.invariant (G := fun _ => True) h.rest h.coherent
      (fun hc hrest ha _ => haccept hc hrest ha) (fun hc hn _ => hc.drainStep hn) (by simp),
    hr.forall_before (G := fun _ => True) h.rest h.coherent
      (fun hc hrest ha _ => haccept hc hrest ha) (fun hc hn _ => hc.drainStep hn) (by simp)⟩

end

/-- **Rest coherence** of every Playing state a scenario can reach. -/
theorem rest_coherent {cards : CardSet} {scenario : Scenario} {start s : GameState}
    {evs : List GameEvent} (hstart : fromScenario cards scenario = .ok start)
    (hr : Reachable start evs s) (hs : s.status = .playing) :
    ¬(s.pending.isSome = true ∧ s.turn.window.isSome = true) ∧
      (s.pending = none → s.turn.window = none →
        s.work = [] ∧ s.stack = [] ∧ s.stackSegmentBases = [] ∧ s.turn.phase ≠ .upkeep) ∧
      (s.stackSegmentBases.Pairwise (· < ·) ∧ (∀ b ∈ s.stackSegmentBases, b < s.stack.length) ∧
        (s.stack = [] → s.stackSegmentBases = [])) ∧
      (s.turn.window.isSome = true → s.stack = [] → s.work = []) := by
  have hopen := opening_of_fromScenario hstart
  obtain ⟨tr, hrun, -⟩ := reachable_iff.mp hr
  have hc := (hopen.run_coherent hrun).1
  refine ⟨fun ⟨hp, hw⟩ => ?_, fun hp hw => hc.idle hs (hrun.rest hopen.rest) hp hw,
    ⟨hc.increasing, hc.below, hc.bases_of_stack⟩, hc.finished⟩
  rw [hc.oneDecision hp] at hw
  cases hw

open Fixtures in
/-- The window `EndTurn` opens, over an empty Stack. -/
theorem rest_coherent_endTurn :
    ∃ start evs s, Reachable start evs s ∧ s.turn.window = some ⟨.two, false⟩ ∧
      s.pending = none ∧ s.work = [] := by
  have hdemo : (demo ⟨[summon 1 40 .base [] [.matter]]⟩
      (facing (lone (inPlay 1 1)) (lone (inPlay 2 1))) [.endTurn .one]).map
        (fun r => (r.2.1.turn.window, r.2.1.stack, r.2.1.status)) =
      some (some ⟨.two, false⟩, [], .playing) := by decide +kernel
  obtain ⟨⟨start, s, evs⟩, hr, hv⟩ := Option.map_eq_some_iff.mp hdemo
  simp only [Prod.mk.injEq] at hv
  obtain ⟨hwindow, hstack, hstatus⟩ := hv
  obtain ⟨hstart, hreach⟩ := reachable_of_demo hr
  obtain ⟨honce, -, -, hfinished⟩ := rest_coherent hstart hreach hstatus
  refine ⟨start, evs, s, hreach, hwindow, ?_, hfinished (by rw [hwindow]; rfl) hstack⟩
  cases hp : s.pending with
  | none => rfl
  | some pending => exact absurd ⟨by rw [hp]; rfl, by rw [hwindow]; rfl⟩ honce

end Summoners
