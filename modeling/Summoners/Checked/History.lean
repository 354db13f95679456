import Mathlib.Logic.Relation
import Mathlib.Data.List.Induction

/-! # Histories

Transition systems that keep a log: a step leaves it alone or writes one entry at its end. The
definitions and rules are over arbitrary states and entries.

* `Logs.exists_step` finds the step that wrote an entry, with the log before it.
* `Logs.prefix` compares the logs along a run.
-/

namespace Checked
set_option autoImplicit false

variable {α β : Type} {S : α → α → Prop} {log : α → List β}

/-- Every step writes at most one entry. -/
structure Logs (S : α → α → Prop) (log : α → List β) : Prop where
  step : ∀ {a b}, S a b → log b = log a ∨ ∃ e, log b = log a ++ [e]

theorem Logs.prefix (hlogs : Logs S log) {a b : α} (h : Relation.ReflTransGen S a b) :
    log a <+: log b := by
  induction h with
  | refl => exact List.prefix_refl _
  | tail _ hstep ih =>
    obtain heq | ⟨e, heq⟩ := hlogs.step hstep
    · rwa [heq]
    · rw [heq]
      exact ih.trans (List.prefix_append _ _)

/-- An entry that a run wrote was written by one of its steps, behind the entries before it. -/
theorem Logs.exists_step (hlogs : Logs S log) {a b : α} (h : Relation.ReflTransGen S a b)
    (ha : log a = []) {pre post : List β} {e : β} (hb : log b = pre ++ e :: post) :
    ∃ c d, Relation.ReflTransGen S a c ∧ S c d ∧ Relation.ReflTransGen S d b ∧
      log c = pre ∧ log d = pre ++ [e] := by
  induction h generalizing post with
  | refl =>
    rw [ha] at hb
    exact absurd hb (by simp)
  | @tail b b' hrun hstep ih =>
    obtain heq | ⟨last, heq⟩ := hlogs.step hstep
    · obtain ⟨c, d, hc, hcd, hd, hpre, hpost⟩ := ih (heq.symm.trans hb)
      exact ⟨c, d, hc, hcd, hd.tail hstep, hpre, hpost⟩
    · rw [heq] at hb
      induction post using List.reverseRecOn with
      | nil =>
        obtain ⟨hlog, hlast⟩ := List.append_inj' hb rfl
        refine ⟨b, b', hrun, hstep, .refl, hlog, ?_⟩
        rw [heq, hlog, hlast]
      | append_singleton post last' _ =>
        have hsplit : log b ++ [last] = (pre ++ e :: post) ++ [last'] := by
          rw [hb]
          simp
        obtain ⟨hlog, -⟩ := List.append_inj' hsplit rfl
        obtain ⟨c, d, hc, hcd, hd, hpre, hpost⟩ := ih hlog
        exact ⟨c, d, hc, hcd, hd.tail hstep, hpre, hpost⟩

end Checked
