import Summoners.Proof.Termination

/-! # A paused decision

Every handler but three asks for no pending input in a guard of its own. The three answers ask for
the pending input they answer, and a resignation asks for nothing.
-/

namespace Summoners
set_option autoImplicit false

/-- The answers to a pending input, and a resignation. -/
inductive Answers (s : GameState) : PendingInput → GameAction → Prop
  | mana {c : PlayerId} {source : ManaSource} {t : ManaType}
      (ht : t ∈ Upkeep.availableTypes s.cards (s.player c) source) :
      Answers s (.manaProduction c source) (.chooseManaType c t)
  | promotion {c : PlayerId} {slot : BenchSlot}
      (hslot : ((s.player c).bench.get slot).isSome = true) :
      Answers s (.promotion c) (.choosePromotion c slot)
  | prize {c : PlayerId} {i : ℕ} (hi : i < (s.player c.opponent).prizes.length) :
      Answers s (.prizePick c) (.choosePrize c i)
  | resign {asked : PendingInput} {c : PlayerId} : Answers s asked (.resign c)

section
variable {s t : GameState} {es : List GameEvent} {asked : PendingInput} {a : GameAction}

/-- What a paused state lets through answers it. -/
theorem ActionStep.answers (h : ActionStep s a t es) (hasked : s.pending = some asked) :
    Answers s asked a := by
  cases h with
  | played free _ _ _ _ _ => exact absurd (hasked.symm.trans free.pending) (by simp)
  | upgraded free _ _ _ _ _ _ _ _ _ => exact absurd (hasked.symm.trans free.pending) (by simp)
  | skill free _ _ _ _ _ _ _ => exact absurd (hasked.symm.trans free.pending) (by simp)
  | retreated free _ _ _ => exact absurd (hasked.symm.trans free.pending) (by simp)
  | attacked free _ _ _ _ => exact absurd (hasked.symm.trans free.pending) (by simp)
  | cast hpending _ _ _ _ _ => exact absurd (hasked.symm.trans hpending) (by simp)
  | turnEnded hpending _ _ _ => exact absurd (hasked.symm.trans hpending) (by simp)
  | passed hpending _ => exact absurd (hasked.symm.trans hpending) (by simp)
  | passedToStack hpending _ _ => exact absurd (hasked.symm.trans hpending) (by simp)
  | handedOver hpending _ _ => exact absurd (hasked.symm.trans hpending) (by simp)
  | converted hpending _ _ _ => exact absurd (hasked.symm.trans hpending) (by simp)
  | manaChosen hpending ht =>
      obtain rfl := Option.some.inj (hasked.symm.trans hpending)
      exact .mana ht
  | promotionChosen hpending hx =>
      obtain rfl := Option.some.inj (hasked.symm.trans hpending)
      exact .promotion (by rw [hx]; rfl)
  | prizeChosen hpending hcard =>
      obtain rfl := Option.some.inj (hasked.symm.trans hpending)
      exact .prize (List.getElem?_eq_some_iff.mp hcard).1
  | resigned => exact .resign

/-- `apply` answers over the cards a Set may hold. -/
theorem apply_returns (hcards : s.cards.TriggersAdmitted) (a : GameAction) :
    ∃ fuel r, apply fuel s a = some r := by
  unfold apply
  cases hh : Apply.handle s a with
  | error e => exact ⟨0, _, rfl⟩
  | ok o =>
      have hacc : engine.accept s a = some (o.state, o.events) := engine_accept_eq_some.mpr hh
      have hsame : o.state.cards = s.cards :=
        (accept_step hacc).2.1.cards (Apply.playing_of_handle hh)
      obtain ⟨tr, t, hsettles⟩ := settles_of_admitted (s := o.state) (by rw [hsame]; exact hcards)
      refine ⟨tr.length + 1, ?_⟩
      simp only
      split
      · exact ⟨_, rfl⟩
      · rw [Resolution.drain, RunToCompletion.Machine.settle_of_settles hsettles]
        exact ⟨_, rfl⟩

end

end Summoners
