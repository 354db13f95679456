import Summoners.Fixtures
import Summoners.Steps.Frames

/-! # The terminal event

A batch of events reports the end of the game exactly when the status it is returned with says so,
once, and as its last event.
-/

namespace Summoners
set_option autoImplicit false

open Effects RunToCompletion

def GameEvent.isGameEnded : GameEvent → Bool
  | .gameEnded _ _ => true
  | _ => false

/-- No event of the batch ends the game. -/
def Silent (es : List GameEvent) : Prop := ∀ e ∈ es, e.isGameEnded = false

/-- What a batch says about the end of the game, beside the status it leads to. -/
def Verdict (es : List GameEvent) : GameStatus → Prop
  | .ended outcome => ∃ es', es = es' ++ [.gameEnded outcome.winner outcome.reason] ∧ Silent es'
  | .playing | .broken _ => Silent es

section
variable {es es' : List GameEvent}

@[simp] theorem silent_nil : Silent [] := by simp [Silent]

@[simp] theorem silent_cons {e : GameEvent} :
    Silent (e :: es) ↔ e.isGameEnded = false ∧ Silent es := by simp [Silent]

@[simp] theorem silent_append : Silent (es ++ es') ↔ Silent es ∧ Silent es' := by
  simp [Silent, or_imp, forall_and]

theorem Minor.silent (h : Minor es) : Silent es := by
  intro e he
  have := h e he
  cases e <;> first | rfl | cases this

@[simp] theorem silent_payment (payment : Payment) (c : PlayerId) : Silent (payment.events c) := by
  intro e he
  obtain ⟨d, -, rfl⟩ := List.mem_map.mp he
  rfl

theorem Verdict.of_silent {st : GameStatus} (h : Silent es) (hst : ∀ o, st ≠ .ended o) :
    Verdict es st := by
  cases st with
  | playing => exact h
  | ended o => exact absurd rfl (hst o)
  | broken b => exact h

theorem Verdict.of_playing {st : GameStatus} (hst : st = .playing) (h : Silent es) :
    Verdict es st := by
  subst hst
  exact h

theorem Verdict.silent {st : GameStatus} (h : Verdict es st) (hst : st = .playing) : Silent es := by
  subst hst
  exact h

/-- Silent events before a verdict change nothing. -/
theorem Verdict.append {st : GameStatus} (h : Silent es) (h' : Verdict es' st) :
    Verdict (es ++ es') st := by
  cases st with
  | playing => exact silent_append.mpr ⟨h, h'⟩
  | broken b => exact silent_append.mpr ⟨h, h'⟩
  | ended o =>
      obtain ⟨before, rfl, hb⟩ := h'
      exact ⟨es ++ before, by simp, silent_append.mpr ⟨h, hb⟩⟩

theorem Verdict.cons {st : GameStatus} {e : GameEvent} (he : e.isGameEnded = false)
    (h : Verdict es st) : Verdict (e :: es) st :=
  Verdict.append (silent_cons.mpr ⟨he, silent_nil⟩) h

theorem Verdict.lost {c : PlayerId} {reason : LossReason} (h : Silent es) :
    Verdict (es ++ [.gameEnded c reason]) (.ended ⟨c, reason⟩) := ⟨es, rfl, h⟩

end

/-! ## One step -/

section
variable {s t : GameState} {es : List GameEvent}

theorem LeafStep.verdict {source : EffectSource} {targets : List Position} {leaf : EffectLeaf}
    (h : LeafStep s source targets leaf t es)
    (hs : s.status = .playing) : Verdict es t.status := by
  cases h with
  | quiet hm => exact .of_playing hs hm.silent
  | touched _ _ _ hm => exact .of_playing hs hm.silent
  | hit _ _ hm => exact .of_playing hs hm.silent
  | zones _ hm => exact .of_playing hs hm.silent
  | drewOut _ hm => exact .lost hm.silent
  | moved _ _ => exact .of_playing hs silent_nil
  | exchanged _ _ => exact .of_playing hs (by simp [GameEvent.isGameEnded])
  | produced _ => exact .of_playing hs (by simp [GameEvent.isGameEnded])
  | paused _ => exact .of_playing hs silent_nil

theorem applyLeaves_verdict {source : EffectSource} {targets : List Position}
    {leaves : List EffectLeaf} (h : applyLeaves s source targets leaves = (t, es))
    (hs : s.status = .playing) : Verdict es t.status := by
  exact applyLeaves_rel (R := fun s es t => s.status = .playing → Verdict es t.status) h hs
    (fun _ hs => .of_playing hs silent_nil)
    (fun ht h h' hs => .append ((h hs).silent ht) (h' ht)) (fun _ hs h _ => h.verdict hs) hs

theorem ItemStep.verdict {item : WorkItem} (h : ItemStep s item t es)
    (hs : s.status = .playing) : Verdict es t.status := by
  cases h with
  | deckEmpty => exact ⟨[], rfl, silent_nil⟩
  | lost _ => exact ⟨[], rfl, silent_nil⟩
  | checkBroke _ _ _ => exact silent_nil
  | discardBroke _ => exact silent_nil
  | fired _ hl => exact .cons rfl (applyLeaves_verdict hl hs)
  | movement =>
      refine .of_playing ?_ silent_nil
      rw [GameState.pushFront_status]
      unfold Triggers.markMainEntry
      split <;> exact hs
  | opened _ => exact .of_playing hs (by simp [GameEvent.isGameEnded])
  | readied => exact .of_playing hs (by simp [Upkeep.readyAll, GameEvent.isGameEnded])
  | drew _ => exact .of_playing hs (by simp [GameEvent.isGameEnded])
  | produced _ => exact .of_playing hs (by simp [GameEvent.isGameEnded])
  | discarded _ _ => exact .of_playing hs (by simp [GameEvent.isGameEnded])
  | promoted _ _ => exact .of_playing hs (by simp [GameEvent.isGameEnded])
  | _ => exact .of_playing hs silent_nil

theorem StackStep.verdict {item : StackItem} {u : GameState} (h : StackStep s item u t es)
    (hs : s.status = .playing) : Verdict es t.status := by
  have hv := applyLeaves_verdict h.leaves hs
  simpa [h.result] using hv

/-- One iteration of the drain. -/
theorem drainStep_verdict (h : Resolution.drainStep s = some (t, es)) :
    s.status = .playing ∧ Verdict es t.status := by
  obtain ⟨hd, ⟨item, u, es', hst, rfl⟩ | ⟨-, item, work, -, hi⟩⟩ := drainStep_cases h
  · exact ⟨hd.playing, .cons rfl (hst.verdict hd.playing)⟩
  · exact ⟨hd.playing, hi.verdict hd.playing⟩

theorem ActionStep.verdict {a : GameAction} (h : ActionStep s a t es)
    (hs : s.status = .playing) : Verdict es t.status := by
  cases h with
  | skill _ _ _ _ _ _ _ hl =>
      exact .append (silent_payment _ _) (.cons rfl (applyLeaves_verdict hl hs))
  | resigned => exact ⟨[], rfl, silent_nil⟩
  | _ => exact .of_playing hs (by simp [GameEvent.isGameEnded])

/-- **Every accepted action.** Its events and the status it returns agree about the end. -/
theorem accepted_verdict {a : GameAction} {o : ActionOutcome} (h : Accepted s a o) :
    Verdict o.events o.state.status := by
  obtain ⟨tr, hc, he⟩ := accepted_iff.mp h
  rw [he]
  refine hc.induct (I := fun tr u => Verdict (facts tr) u.status) (fun ha => ?_)
    (fun hv hn => ?_)
  · obtain ⟨hs, hst, -⟩ := accept_step ha
    simpa using hst.verdict hs
  · obtain ⟨hs, hv'⟩ := drainStep_verdict hn
    simpa using Verdict.append (hv.silent hs) hv'

end

/-- **The terminal event.** An accepted action reports `GameEnded` if and only if it returns an
Ended status; then it reports it once, last, and with the winner and the reason of the status. -/
theorem gameEnded_iff_ended {s : GameState} {a : GameAction} {o : ActionOutcome}
    (h : Accepted s a o) :
    ((∃ winner reason, .gameEnded winner reason ∈ o.events) ↔
        ∃ outcome, o.state.status = .ended outcome) ∧
      ∀ outcome, o.state.status = .ended outcome →
        o.events.filter GameEvent.isGameEnded = [.gameEnded outcome.winner outcome.reason] ∧
          o.events.getLast? = some (.gameEnded outcome.winner outcome.reason) := by
  have hv := accepted_verdict h
  cases hst : o.state.status with
  | ended outcome =>
      rw [hst] at hv
      obtain ⟨es, hes, hsilent⟩ := hv
      refine ⟨⟨fun _ => ⟨_, rfl⟩, fun _ => ⟨outcome.winner, outcome.reason, by simp [hes]⟩⟩, ?_⟩
      rintro _ ⟨⟩
      have hnone : es.filter GameEvent.isGameEnded = [] :=
        List.filter_eq_nil_iff.mpr (fun e he => by simp [hsilent e he])
      simp [hes, hnone, GameEvent.isGameEnded]
  | playing =>
      rw [hst] at hv
      refine ⟨⟨?_, by rintro ⟨_, ⟨⟩⟩⟩, by rintro _ ⟨⟩⟩
      rintro ⟨w, r, hm⟩
      cases hv _ hm
  | broken b =>
      rw [hst] at hv
      refine ⟨⟨?_, by rintro ⟨_, ⟨⟩⟩⟩, by rintro _ ⟨⟩⟩
      rintro ⟨w, r, hm⟩
      cases hv _ hm

open Fixtures in
/-- The second pass that hands the turn to a player with an empty Deck. -/
theorem gameEnded_iff_ended_emptyDeck :
    ∃ s a o, Accepted s a o ∧ o.events.length = 4 ∧
      o.events.getLast? = some (.gameEnded .one .emptyDeckDraw) := by
  have hdemo : (demoStep ⟨[summon 1 40 .base [] [.matter]]⟩
      (facing (lone (inPlay 1 1)) (lone (inPlay 2 1))) [.endTurn .one, .passPriority .two]
      (.passPriority .one)).map (fun r => (r.2.2.state.status, r.2.2.events.length)) =
        some (.ended ⟨.one, .emptyDeckDraw⟩, 4) := by decide +kernel
  obtain ⟨⟨start, s, o⟩, hr, hv⟩ := Option.map_eq_some_iff.mp hdemo
  simp only [Prod.mk.injEq] at hv
  obtain ⟨-, -, ha⟩ := accepted_of_demoStep hr
  exact ⟨s, _, o, ha, hv.2, ((gameEnded_iff_ended ha).2 _ hv.1).2⟩

end Summoners
