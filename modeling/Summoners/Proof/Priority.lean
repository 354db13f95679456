import Summoners.Proof.Rest
import Summoners.Steps.Facts

/-! # The Priority protocol

A window is passed on once and closed by the second pass in a row. `priorPass` is a flag of the
state; `lastCounted` is read off the history. The invariant says that the flag tells the history:
a drain may open a window, but every action taken inside one either starts the count anew, passes,
or is a conversion of the Coin, which is not counted.
-/

namespace Summoners
set_option autoImplicit false

open Effects RunToCompletion

def GameAction.isConversion : GameAction → Bool
  | .convertCoin _ _ => true
  | _ => false

/-- The step is taken with a window open. -/
def inWindow (x : Entry GameState GameAction GameEvent) : Bool := x.before.turn.window.isSome

/-- The actions accepted since the window now open was opened, the last one first. -/
def actionsInWindow (tr : List (Entry GameState GameAction GameEvent)) : List GameAction :=
  (tr.reverse.takeWhile inWindow).filterMap Entry.input

/-- The last of them that is no conversion of the Coin. -/
def lastCounted (tr : List (Entry GameState GameAction GameEvent)) : Option GameAction :=
  (actionsInWindow tr).find? (fun a => !a.isConversion)

section
variable {s t : GameState} {es : List GameEvent}
  {tr : List (Entry GameState GameAction GameEvent)}
  {x : Entry GameState GameAction GameEvent}

theorem actionsInWindow_concat (tr : List (Entry GameState GameAction GameEvent))
    (x : Entry GameState GameAction GameEvent) : actionsInWindow (tr ++ [x]) =
      if inWindow x then x.input.toList ++ actionsInWindow tr else [] := by
  unfold actionsInWindow
  rw [List.reverse_concat, List.takeWhile_cons]
  split
  · rw [List.filterMap_cons]
    cases x.input <;> rfl
  · rfl

/-- Outside a window nothing is counted. -/
theorem lastCounted_outside (hx : x.before.turn.window = none) : lastCounted (tr ++ [x]) = none := by
  unfold lastCounted
  rw [actionsInWindow_concat, if_neg (by simp [inWindow, hx])]
  rfl

/-- A counted action is the last one, if a window was open. -/
theorem lastCounted_action {a : GameAction} (ha : x.input = some a) (hc : a.isConversion = false)
    (hx : inWindow x = true) : lastCounted (tr ++ [x]) = some a := by
  unfold lastCounted
  rw [actionsInWindow_concat, if_pos hx, ha]
  simp [hc]

theorem lastCounted_conversion {a : GameAction} (ha : x.input = some a)
    (hc : a.isConversion = true) (hx : inWindow x = true) :
    lastCounted (tr ++ [x]) = lastCounted tr := by
  unfold lastCounted
  rw [actionsInWindow_concat, if_pos hx, ha]
  simp [hc]

/-- No pass is the last counted action right behind an action that is counted and no pass. -/
theorem lastCounted_ne {a : GameAction} {c : PlayerId} (ha : x.input = some a)
    (hc : a.isConversion = false) (hne : a ≠ .passPriority c) :
    lastCounted (tr ++ [x]) ≠ some (.passPriority c) := by
  intro hlast
  cases hx : x.before.turn.window with
  | none =>
      rw [lastCounted_outside hx] at hlast
      cases hlast
  | some w =>
      rw [lastCounted_action ha hc (by rw [inWindow, hx]; rfl)] at hlast
      exact hne (Option.some.inj hlast)

/-! ## The flag and the history -/

/-- The flag of an open window is set exactly when the last counted action was a pass of the player
who does not hold Priority now. -/
def FlagTells (tr : List (Entry GameState GameAction GameEvent)) (s : GameState) : Prop :=
  ∀ w, s.turn.window = some w →
    (w.priorPass = true ↔ lastCounted tr = some (.passPriority w.holder.opponent))

theorem FlagTells.closed (h : s.turn.window = none) : FlagTells tr s := by
  intro w hw
  rw [h] at hw
  cases hw

/-- A window just opened, by a step whose action is not a pass. -/
theorem FlagTells.opened {c : PlayerId} (h : s.turn.window = some (Stack.windowAfterPlay c))
    (hlast : lastCounted tr ≠ some (.passPriority c)) : FlagTells tr s := by
  intro w hw
  rw [h] at hw
  cases hw
  have hholder : (Stack.windowAfterPlay c).holder.opponent = c := PlayerId.opponent_opponent c
  rw [hholder]
  constructor
  · intro hp
    cases hp
  · intro hp
    exact absurd hp hlast

/-- What one action does to the flag, a resignation apart. -/
theorem FlagTells.action {a : GameAction} (h : FlagTells tr s) (hc : Coherent s)
    (hs : s.status = .playing) (ha : ActionStep s a t es) (ht : t.status = .playing) :
    FlagTells (tr ++ [⟨s, some a, es⟩]) t := by
  have hdecided : ∀ {pending : PendingInput}, s.pending = some pending → s.turn.window = none :=
    fun hp => hc.oneDecision (by rw [hp]; rfl)
  cases ha with
  | played free _ _ _ _ _ => exact .closed free.window
  | upgraded free _ _ _ _ _ _ _ _ _ => exact .closed free.window
  | cast _ _ _ _ _ _ => exact .opened rfl (lastCounted_ne rfl rfl (by simp))
  | skill free _ _ _ _ _ _ hl =>
      refine .closed ?_
      rw [(applyLeaves_frame hl hs).turn]
      exact free.window
  | retreated free _ _ _ => exact .closed free.window
  | attacked _ _ _ _ _ => exact .opened rfl (lastCounted_ne rfl rfl (by simp))
  | turnEnded _ _ _ _ => exact .opened rfl (lastCounted_ne rfl rfl (by simp))
  | @passed c _ hw =>
      intro w hwindow
      cases hwindow
      rw [lastCounted_action rfl rfl (by rw [inWindow, hw]; rfl)]
      simp
  | passedToStack _ _ _ => exact .closed rfl
  | handedOver _ _ _ => exact .closed rfl
  | converted _ _ _ _ =>
      intro w hw
      have hw : s.turn.window = some w := hw
      rw [lastCounted_conversion rfl rfl (by rw [inWindow, hw]; rfl)]
      exact h w hw
  | manaChosen hp _ => exact .closed (hdecided hp)
  | promotionChosen hp _ => exact .closed (hdecided hp)
  | prizeChosen hp _ => exact .closed (hdecided hp)
  | resigned => cases ht

/-- An iteration of the drain may only open a window. -/
theorem FlagTells.drainStep (hn : Resolution.drainStep s = some (t, es)) :
    FlagTells (tr ++ [⟨s, none, es⟩]) t := by
  obtain ⟨hd, ⟨item, u, es', hst, rfl⟩ | ⟨-, item, work, -, hi⟩⟩ := drainStep_cases hn
  · refine .closed ?_
    rw [hst.result, closeSegment_turn, placeItem_turn, (applyLeaves_frame hst.leaves hd.playing).turn]
    exact hd.window
  · rcases (hi.frame hd.playing).stack with ⟨-, hturn, -, -⟩ | ⟨-, rfl⟩ | ⟨c, p, ev, ability, effects, -, rfl⟩
    · refine .closed ?_
      rw [hturn]
      exact hd.window
    · exact .closed hd.window
    · refine .opened rfl ?_
      rw [lastCounted_outside hd.window]
      simp

/-! ## Closing a window -/

/-- **Only a second pass in a row closes a window.** -/
theorem ActionStep.closes {a : GameAction} {w : StackWindow} (h : ActionStep s a t es)
    (hc : Coherent s) (hw : s.turn.window = some w) (ht : t.turn.window = none) :
    a = .passPriority w.holder ∧ w.priorPass = true := by
  have hopen : ∀ {p : Prop}, s.turn.window = none → p := fun hn => by rw [hw] at hn; cases hn
  have hdecided : ∀ {p : Prop} {pending : PendingInput}, s.pending = some pending → p :=
    fun hp => hopen (hc.oneDecision (by rw [hp]; rfl))
  cases h with
  | played free _ _ _ _ _ => exact hopen free.window
  | upgraded free _ _ _ _ _ _ _ _ _ => exact hopen free.window
  | cast _ _ _ _ _ _ => cases ht
  | skill free _ _ _ _ _ _ _ => exact hopen free.window
  | retreated free _ _ _ => exact hopen free.window
  | attacked free _ _ _ _ => exact hopen free.window
  | turnEnded _ hn _ _ => exact hopen hn
  | passed _ _ => cases ht
  | passedToStack _ hp _ =>
      rw [hw] at hp
      cases hp
      exact ⟨rfl, rfl⟩
  | handedOver _ hp _ =>
      rw [hw] at hp
      cases hp
      exact ⟨rfl, rfl⟩
  | converted _ _ _ _ => exact hopen ht
  | manaChosen hp _ => exact hdecided hp
  | promotionChosen hp _ => exact hdecided hp
  | prizeChosen hp _ => exact hdecided hp
  | resigned => exact hopen ht

/-- The drain does not run inside a window. -/
theorem input_of_window {w : StackWindow} (ht : engine.Takes x t)
    (hw : x.before.turn.window = some w) : ∃ a, x.input = some a := by
  cases hx : x.input with
  | none =>
      have hn := (drainStep_cases (ht.next hx)).1.window
      rw [hw] at hn
      cases hn
  | some a => exact ⟨a, rfl⟩

/-! ## Runs -/

/-- What a run keeps: coherence, and the flag telling the history as long as the match goes on. -/
structure Protocol (tr : List (Entry GameState GameAction GameEvent)) (s : GameState) : Prop where
  coherent : Coherent s
  flag : s.status = .playing → FlagTells tr s

theorem Opening.run_protocol {cards : CardSet} {start : GameState} (h : Opening cards start)
    (hr : engine.Run start tr s) : Protocol tr s ∧
      ∀ {pre post : List (Entry GameState GameAction GameEvent)}
        {x : Entry GameState GameAction GameEvent}, tr = pre ++ x :: post →
        Protocol pre x.before ∧ ∃ t, engine.Takes x t ∧ Protocol (pre ++ [x]) t := by
  refine hr.split h.rest ⟨h.coherent, fun _ => .closed h.window⟩ ?_ ?_
  · intro tr s t a es hI hrest ha
    obtain ⟨hs, hst, -⟩ := accept_step ha
    exact ⟨hI.coherent.action hs hrest hst, (hI.flag hs).action hI.coherent hs hst⟩
  · intro tr s t es hI hn
    exact ⟨hI.coherent.drainStep hn, fun _ => .drainStep hn⟩

end

/-- **The Priority protocol** of every run from a scenario: who closes a window and when, what the
flag of an open window tells of the history while the match goes on, when the Stack resolves, and
which pass begins a turn. -/
theorem priority_protocol {cards : CardSet} {scenario : Scenario} {start s : GameState}
    {tr : List (Entry GameState GameAction GameEvent)}
    (hstart : fromScenario cards scenario = .ok start) (hr : engine.Run start tr s) :
    (∀ pre x post t w, tr = pre ++ x :: post → engine.Takes x t →
      x.before.turn.window = some w → t.turn.window = none →
        x.input = some (.passPriority w.holder) ∧ w.priorPass = true ∧
          lastCounted pre = some (.passPriority w.holder.opponent)) ∧
      (s.status = .playing → ∀ w, s.turn.window = some w →
        (w.priorPass = true ↔ lastCounted tr = some (.passPriority w.holder.opponent))) ∧
      (∀ pre x post w, tr = pre ++ x :: post → x.before.turn.window = some w →
        (w.priorPass = true ↔ lastCounted pre = some (.passPriority w.holder.opponent))) ∧
      (∀ x ∈ tr, ∀ item, .stackItemResolved item ∈ x.emitted → x.before.turn.window = none) ∧
      ∀ x ∈ tr, ∀ p, .turnBegan p ∈ x.emitted → ∃ w, x.before.turn.window = some w ∧
        w.priorPass = true ∧ x.input = some (.passPriority w.holder) ∧ x.before.stack = [] ∧
          ∀ t, engine.Takes x t → t.turn.window = none := by
  have hopen := opening_of_fromScenario hstart
  obtain ⟨hlast, hsplit⟩ := hopen.run_protocol hr
  have hclose : ∀ pre x post t w, tr = pre ++ x :: post → engine.Takes x t →
      x.before.turn.window = some w → t.turn.window = none →
        x.input = some (.passPriority w.holder) ∧ w.priorPass = true ∧
          lastCounted pre = some (.passPriority w.holder.opponent) := by
    intro pre x post t w heq ht hw hclosed
    obtain ⟨hbefore, -⟩ := hsplit heq
    obtain ⟨a, ha⟩ := input_of_window ht hw
    obtain ⟨hs, hst, -⟩ := accept_step (ht.accept ha)
    obtain ⟨rfl, hprior⟩ := hst.closes hbefore.coherent hw hclosed
    exact ⟨ha, hprior, (hbefore.flag hs w hw).mp hprior⟩
  refine ⟨hclose, fun hs => hlast.flag hs, ?_, ?_, ?_⟩
  · intro pre x post w heq hw
    obtain ⟨hbefore, t, ht, -⟩ := hsplit heq
    obtain ⟨a, ha⟩ := input_of_window ht hw
    exact hbefore.flag (accept_step (ht.accept ha)).1 w hw
  · intro x hx item hitem
    obtain ⟨pre, post, heq⟩ := List.append_of_mem hx
    obtain ⟨-, t, ht, -⟩ := hsplit heq
    cases hin : x.input with
    | none => exact (drainStep_cases (ht.next hin)).1.window
    | some a =>
        obtain ⟨hs, hst, -⟩ := accept_step (ht.accept hin)
        exact absurd hitem (hst.not_resolved hs)
  · intro x hx p hp
    obtain ⟨pre, post, heq⟩ := List.append_of_mem hx
    obtain ⟨-, t, ht, -⟩ := hsplit heq
    cases hin : x.input with
    | none => cases (drainStep_unannounced (ht.next hin) _ hp).2
    | some a =>
        obtain ⟨hs, hst, -⟩ := accept_step (ht.accept hin)
        obtain ⟨c, rfl, -, hw, hstack, -, hresult⟩ := hst.turnBegan hs hp
        refine ⟨_, hw, rfl, rfl, hstack, fun u hu => ?_⟩
        rw [← ht.unique hu, hresult]
        rfl

open Fixtures in
/-- A resignation leaves the window as it was, with the flag of the pass before it. -/
theorem priority_not_told_after_resignation :
    ∃ start tr s w, fromScenario striking (facing (lone (inPlay 1 1)) (lone (inPlay 2 1))) =
        .ok start ∧ engine.Run start tr s ∧ s.turn.window = some w ∧
      ¬(w.priorPass = true ↔ lastCounted tr = some (.passPriority w.holder.opponent)) := by
  have hdemo : (demoTrace striking (facing (lone (inPlay 1 1)) (lone (inPlay 2 1)))
      [.endTurn .one, .passPriority .two, .resign .one]).map
        (fun r => decide (r.2.2.turn.window = some ⟨.one, true⟩ ∧
          lastCounted r.2.1 = some (.resign .one))) = some true := by decide +kernel
  obtain ⟨⟨start, tr, s⟩, hr, hv⟩ := Option.map_eq_some_iff.mp hdemo
  obtain ⟨hw, hlast⟩ := of_decide_eq_true hv
  obtain ⟨hstart, hrun⟩ := run_of_demoTrace hr
  refine ⟨start, tr, s, _, hstart, hrun, hw, fun hiff => ?_⟩
  rw [hlast] at hiff
  cases hiff.mp rfl

open Fixtures in
/-- The Coin is converted between the two passes that end a turn. -/
theorem priority_protocol_coin :
    ∃ start tr s, fromScenario striking
        { facing (lone (inPlay 1 1)) (lone (inPlay 2 1)) with coin := some .mk } = .ok start ∧
      engine.Run start tr s ∧ s.turn.window = some ⟨.one, true⟩ ∧
      lastCounted tr = some (.passPriority .two) ∧ tr.length = 3 := by
  have hdemo : (demoTrace striking
      { facing (lone (inPlay 1 1)) (lone (inPlay 2 1)) with coin := some .mk }
      [.endTurn .one, .convertCoin .two .matter, .passPriority .two]).map
        (fun r => decide (r.2.2.turn.window = some ⟨.one, true⟩ ∧ r.2.2.status = .playing ∧
          r.2.1.length = 3)) = some true := by decide +kernel
  obtain ⟨⟨start, tr, s⟩, hr, hv⟩ := Option.map_eq_some_iff.mp hdemo
  obtain ⟨hw, hs, hlen⟩ := of_decide_eq_true hv
  obtain ⟨hstart, hrun⟩ := run_of_demoTrace hr
  exact ⟨start, tr, s, hstart, hrun, hw,
    ((priority_protocol hstart hrun).2.1 hs _ hw).mp rfl, hlen⟩

end Summoners
