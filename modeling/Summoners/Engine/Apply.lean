import Summoners.Engine.Resolution
import Summoners.Engine.Skills
import Summoners.Engine.Stack

/-! # The public transition

`engine/apply/mod.rs`. The engine is a run-to-completion machine: `dispatch` behind the actor gate
accepts an action and `Resolution.drainStep` is its internal step. `apply` repeats that step up to
an explicit bound; `Accepted` is its answer for some bound, and `accepted_iff` reads it as one call
of the machine.
-/

namespace Summoners
set_option autoImplicit false
open RunToCompletion

namespace Apply

def resign (state : GameState) (player : PlayerId) : ActionOutcome :=
  ⟨{ state with status := .ended ⟨player.opponent, .resignation⟩ },
    [.gameEnded player.opponent .resignation]⟩

def pendingActor : PendingInput → PlayerId
  | .manaProduction player _ => player
  | .promotion player => player
  | .prizePick chooser => chooser

/-- The one player allowed to act. -/
def requiredActor (state : GameState) : PlayerId :=
  match state.pending with
  | some pending => pendingActor pending
  | none =>
      match state.turn.window with
      | some window => window.holder
      | none => state.turn.activePlayer

def checkActor (state : GameState) (actor : PlayerId) : Except ActionError Unit :=
  if actor = requiredActor state then .ok () else .error .notYourDecision

def dispatch (state : GameState) : GameAction → Except ActionError ActionOutcome
  | .playSummon player card slot => Board.playSummon state player card slot
  | .upgradeSummon player card position => Board.upgradeSummon state player card position
  | .castSpell player card targets manaHint => Stack.castSpell state player card targets manaHint
  | .activateSkill player position ability targets manaHint =>
      Skills.activateSkill state player position ability targets manaHint
  | .retreat player slot manaHint => Board.retreat state player slot manaHint
  | .declareAttack player target manaHint => Stack.declareAttack state player target manaHint
  | .endTurn player => Turn.endTurn state player
  | .passPriority player => Stack.pass state player
  | .convertCoin player manaType => Turn.convertCoin state player manaType
  | .chooseManaType player manaType => Turn.chooseManaType state player manaType
  | .choosePromotion player slot => Destruction.answerPromotion state player slot
  | .choosePrize player prizeIndex => Destruction.answerPrize state player prizeIndex
  | .resign player => .ok (resign state player)

/-- `apply` up to the drain: the handler's outcome, or the error of the gate or of the handler. -/
def handle (state : GameState) (action : GameAction) : Except ActionError ActionOutcome :=
  match state.status with
  | .ended _ => .error .gameAlreadyOver
  | .broken _ => .error .gameBroken
  | .playing =>
      match action with
      | .resign player => .ok (resign state player)
      | action =>
          match checkActor state action.actor with
          | .error e => .error e
          | .ok () => dispatch state action

end Apply

/-- The engine as a machine: one handled action, then `drainStep` until it rests. -/
def engine : Machine GameState GameAction GameEvent where
  next := Resolution.drainStep
  accept state action :=
    match Apply.handle state action with
    | .ok outcome => some (outcome.state, outcome.events)
    | .error _ => none

/-- `resolution::drain`, given up after `fuel` iterations. -/
def Resolution.drain (fuel : ℕ) (state : GameState) : Option (GameState × List GameEvent) :=
  engine.settle fuel state

/-- `apply`. The answer is `none` where `fuel` iterations of the drain do not bring it to rest; a
resignation is not drained. -/
def apply (fuel : ℕ) (state : GameState) (action : GameAction) :
    Option (Except ActionError ActionOutcome) :=
  match Apply.handle state action with
  | .error e => some (.error e)
  | .ok outcome =>
      match action with
      | .resign _ => some (.ok outcome)
      | _ => (Resolution.drain fuel outcome.state).map (fun r => .ok ⟨r.1, outcome.events ++ r.2⟩)

/-- `apply` accepts the action with this outcome. -/
def Accepted (state : GameState) (action : GameAction) (outcome : ActionOutcome) : Prop :=
  ∃ fuel, apply fuel state action = some (.ok outcome)

/-- The states a finite sequence of accepted actions leads to, with all events on the way. -/
inductive Reachable (start : GameState) : List GameEvent → GameState → Prop
  | refl : Reachable start [] start
  | apply {events : List GameEvent} {state : GameState} {action : GameAction}
      {outcome : ActionOutcome} (h : Reachable start events state)
      (ha : Accepted state action outcome) :
      Reachable start (events ++ outcome.events) outcome.state

/-- A list of actions applied one after the other, with all their events; `none` once one of them is
refused. -/
def play (fuel : ℕ) : GameState → List GameAction → Option (GameState × List GameEvent)
  | s, [] => some (s, [])
  | s, a :: rest =>
      match apply fuel s a with
      | some (.ok o) => (play fuel o.state rest).map (fun r => (r.1, o.events ++ r.2))
      | _ => none

/-- The state after an action, if it is accepted. -/
def acceptedOutcome (fuel : ℕ) (s : GameState) (a : GameAction) : Option ActionOutcome :=
  match apply fuel s a with
  | some (.ok o) => some o
  | _ => none

/-- More fuel changes no answer. -/
theorem apply_mono {fuel fuel' : ℕ} (hle : fuel ≤ fuel') {state : GameState} {action : GameAction}
    {answer : Except ActionError ActionOutcome} (h : apply fuel state action = some answer) :
    apply fuel' state action = some answer := by
  unfold apply at h ⊢
  cases hh : Apply.handle state action with
  | error e =>
      rw [hh] at h
      exact h
  | ok o =>
      simp only [hh] at h ⊢
      split at h
      · exact h
      · obtain ⟨r, hr, heq⟩ := Option.map_eq_some_iff.mp h
        exact Option.map_eq_some_iff.mpr ⟨r, Machine.settle_mono hle hr, heq⟩

/-- Two answers to one question agree. -/
theorem apply_unique {fuel fuel' : ℕ} {state : GameState} {action : GameAction}
    {answer answer' : Except ActionError ActionOutcome} (h : apply fuel state action = some answer)
    (h' : apply fuel' state action = some answer') : answer = answer' := by
  have hmore := apply_mono (Nat.le_max_left fuel fuel') h
  rw [apply_mono (Nat.le_max_right fuel fuel') h'] at hmore
  exact (Option.some.inj hmore).symm

/-! ## The machine's reading of `apply` -/

theorem engine_accept_eq_some {s t : GameState} {a : GameAction} {es : List GameEvent} :
    engine.accept s a = some (t, es) ↔ Apply.handle s a = .ok ⟨t, es⟩ := by
  unfold engine
  cases h : Apply.handle s a with
  | error e => simp [h]
  | ok o =>
      obtain ⟨t', es'⟩ := o
      simp [h]

/-- Only a Playing state accepts an action. -/
theorem Apply.playing_of_handle {s : GameState} {a : GameAction} {o : ActionOutcome}
    (h : Apply.handle s a = .ok o) : s.status = .playing := by
  unfold Apply.handle at h
  cases hs : s.status with
  | playing => rfl
  | ended _ => simp [hs] at h
  | broken _ => simp [hs] at h

/-- An accepted action is a resignation, or it passes the actor gate and its handler accepts it. -/
theorem Apply.handle_cases {s : GameState} {a : GameAction} {o : ActionOutcome}
    (h : Apply.handle s a = .ok o) :
    (∃ p, a = .resign p ∧ o = Apply.resign s p) ∨
      ((∀ p, a ≠ .resign p) ∧ a.actor = Apply.requiredActor s ∧ Apply.dispatch s a = .ok o) := by
  have hs := Apply.playing_of_handle h
  unfold Apply.handle at h
  simp only [hs] at h
  split at h
  · cases h
    exact .inl ⟨_, rfl, rfl⟩
  · rename_i hne
    split at h
    · cases h
    · rename_i hc
      refine .inr ⟨hne, ?_, h⟩
      unfold Apply.checkActor at hc
      split at hc
      · assumption
      · cases hc

theorem Resolution.drainStep_of_not_playing {s : GameState} (h : s.status ≠ .playing) :
    Resolution.drainStep s = none := by
  have : s.status.isPlaying = false := by
    cases hs : s.status with
    | playing => exact absurd hs h
    | ended _ => rfl
    | broken _ => rfl
  simp [Resolution.drainStep, this]

/-- **An accepted `apply` is one call of the machine**, and its events are the facts of the call. -/
theorem accepted_iff {s : GameState} {a : GameAction} {o : ActionOutcome} :
    Accepted s a o ↔ ∃ tr, engine.Call s a tr o.state ∧ o.events = facts tr := by
  constructor
  · rintro ⟨fuel, h⟩
    unfold apply at h
    split at h
    · cases h
    · rename_i out hh
      have hacc : engine.accept s a = some (out.state, out.events) := engine_accept_eq_some.mpr hh
      split at h
      · -- a resignation is at rest where it is made
        cases h
        obtain ⟨p, -, rfl⟩ | ⟨hne, -⟩ := Apply.handle_cases hh
        · exact ⟨_, ⟨_, _, _, hacc, .of_rest (Resolution.drainStep_of_not_playing (by
            simp [Apply.resign])), rfl⟩, by simp⟩
        · exact absurd rfl (hne _)
      · obtain ⟨⟨t, es⟩, hd, heq⟩ := Option.map_eq_some_iff.mp h
        cases heq
        obtain ⟨tr, htr, rfl⟩ := Machine.settle_iff.mp ⟨fuel, hd⟩
        exact ⟨_, ⟨_, _, _, hacc, htr, rfl⟩, by simp⟩
  · rintro ⟨_, ⟨t, es, tr, hacc, htr, rfl⟩, hes⟩
    have hh := engine_accept_eq_some.mp hacc
    obtain ⟨u, evs⟩ := o
    simp only at htr hes
    by_cases hr : ∃ p, a = .resign p
    · obtain ⟨p, rfl⟩ := hr
      obtain ⟨q, hq, hout⟩ | ⟨hne, -⟩ := Apply.handle_cases hh
      · have ht : t.status ≠ .playing := by
          have := congrArg ActionOutcome.state hout
          rw [show t = _ from this]
          simp [Apply.resign]
        obtain ⟨rfl, rfl⟩ := htr.eq_of_rest (Resolution.drainStep_of_not_playing ht)
        refine ⟨0, ?_⟩
        unfold apply
        rw [hh]
        simp [hes]
      · exact absurd rfl (hne p)
    · obtain ⟨fuel, hf⟩ := Machine.settle_iff.mpr ⟨tr, htr, rfl⟩
      refine ⟨fuel, ?_⟩
      unfold apply
      rw [hh]
      split
      · rename_i heq
        cases heq
      · rename_i heq
        cases heq
        split
        · exact absurd ⟨_, rfl⟩ hr
        · unfold Resolution.drain
          rw [hf]
          simp [hes]

/-- A reachable state is the end of a run of the machine. -/
theorem reachable_iff {start s : GameState} {evs : List GameEvent} :
    Reachable start evs s ↔ ∃ tr, engine.Run start tr s ∧ evs = facts tr := by
  constructor
  · intro h
    induction h with
    | refl => exact ⟨[], .start, rfl⟩
    | apply _ ha ih =>
        obtain ⟨tr, hr, rfl⟩ := ih
        obtain ⟨tr', hc, he⟩ := accepted_iff.mp ha
        exact ⟨_, hr.call hc, by simp [he]⟩
  · rintro ⟨tr, hr, rfl⟩
    induction hr with
    | start => exact .refl
    | @call s u i tr tr' _ hc ih =>
        have ha : Accepted s i ⟨u, facts tr'⟩ := accepted_iff.mpr ⟨_, hc, rfl⟩
        have := Reachable.apply ih ha
        simpa using this

/-! ## Playing a list of actions -/

theorem Reachable.trans {start s t : GameState} {evs evs' : List GameEvent}
    (h : Reachable start evs s) (h' : Reachable s evs' t) : Reachable start (evs ++ evs') t := by
  induction h' with
  | refl => simpa using h
  | apply _ ha ih =>
      rw [← List.append_assoc]
      exact .apply ih ha

theorem accepted_of_acceptedOutcome {fuel : ℕ} {s : GameState} {a : GameAction} {o : ActionOutcome}
    (h : acceptedOutcome fuel s a = some o) : Accepted s a o := by
  unfold acceptedOutcome at h
  split at h
  · rename_i heq
    cases h
    exact ⟨fuel, heq⟩
  · cases h

theorem reachable_of_play {fuel : ℕ} : ∀ {actions : List GameAction} {s t : GameState}
    {evs : List GameEvent}, play fuel s actions = some (t, evs) → Reachable s evs t
  | [], _, _, _, h => by cases h; exact .refl
  | a :: rest, s, t, evs, h => by
      unfold play at h
      split at h
      · rename_i o ho
        obtain ⟨⟨u, evs'⟩, hu, heq⟩ := Option.map_eq_some_iff.mp h
        cases heq
        have first : Reachable s ([] ++ o.events) o.state := .apply .refl ⟨fuel, ho⟩
        exact first.trans (reachable_of_play hu)
      · cases h

end Summoners
