import Summoners.Cards.Loaded
import Summoners.Proof.Answers
import Summoners.Proof.OverDamage

/-! # No authored game breaks

The engine breaks a game where a rule demands a component that is not printed. Only destruction
demands one, the Life of a Summon in play, and a Summon in play shows a card with a Form on top; a
library assembled from authored Sets has no card with a Form and without Life.
-/

namespace Summoners
set_option autoImplicit false

open Effects RunToCompletion Destruction

def Unbroken (s : GameState) : Prop := ∀ b, s.status ≠ .broken b

section
variable {s t : GameState} {es : List GameEvent}

theorem Unbroken.of_playing (h : s.status = .playing) : Unbroken s := by
  intro b hb
  rw [h] at hb
  cases hb

theorem Unbroken.of_ended {o : GameOutcome} (h : s.status = .ended o) : Unbroken s := by
  intro b hb
  rw [h] at hb
  cases hb

theorem LeafStep.unbroken {source : EffectSource} {targets : List Position} {leaf : EffectLeaf}
    (h : LeafStep s source targets leaf t es) (hs : s.status = .playing) : Unbroken t := by
  cases h with
  | drewOut _ _ => exact .of_ended rfl
  | _ => exact .of_playing hs

theorem applyLeaves_unbroken {source : EffectSource} {targets : List Position}
    {leaves : List EffectLeaf} (h : applyLeaves s source targets leaves = (t, es))
    (hs : s.status = .playing) : Unbroken t := by
  exact applyLeaves_rel (R := fun s _ t => Unbroken s → Unbroken t) h hs (fun _ => id)
    (fun _ h h' hs => h' (h hs)) (fun _ hs h _ => h.unbroken hs) (.of_playing hs)

/-- The check meets no Summon without Life. -/
theorem Printed.isDestroyed_ok (h : Printed s) {q : PlayerId} {p : Position} {b : Breakage} :
    isDestroyed s q p ≠ .error b := by
  intro hb
  obtain ⟨x, hx, herror⟩ := isDestroyed_error hb
  obtain ⟨life, hlife⟩ := h q p x hx
  rw [hlife] at herror
  cases herror

theorem ItemStep.unbroken {item : WorkItem} (h : ItemStep s item t es) (hs : s.status = .playing)
    (hprinted : Printed s) : Unbroken t := by
  cases h with
  | checkBroke _ _ hbroke =>
      obtain ⟨q, hq⟩ := hbroke
      exact absurd hq hprinted.isDestroyed_ok
  | discardBroke hb =>
      obtain ⟨q, hq⟩ := firstDestroyed_error hb
      exact absurd hq hprinted.isDestroyed_ok
  | deckEmpty => exact .of_ended rfl
  | lost _ => exact .of_ended rfl
  | fired _ hl => exact applyLeaves_unbroken hl hs
  | movement => exact .of_playing ((markMainEntry_frame _ _ _ _).2.2.2.2.2.1.trans hs)
  | _ => exact .of_playing hs

theorem StackStep.unbroken {item : StackItem} {u : GameState} (h : StackStep s item u t es)
    (hs : s.status = .playing) : Unbroken t := by
  have hu := applyLeaves_unbroken h.leaves hs
  rw [h.result]
  simpa [Unbroken] using hu

theorem drainStep_unbroken (h : Resolution.drainStep s = some (t, es)) (hprinted : Printed s) :
    Unbroken t := by
  obtain ⟨hd, ⟨item, u, es', hst, -⟩ | ⟨-, item, work, -, hi⟩⟩ := drainStep_cases h
  · exact hst.unbroken hd.playing
  · exact hi.unbroken hd.playing hprinted

theorem ActionStep.unbroken {a : GameAction} (h : ActionStep s a t es) (hs : s.status = .playing) :
    Unbroken t := by
  cases h with
  | skill _ _ _ _ _ _ _ hl => exact applyLeaves_unbroken hl hs
  | resigned => exact .of_ended rfl
  | _ => exact .of_playing hs

/-- Where a Form comes with Life, the Summons in play print Life. -/
theorem Formed.printed (h : Formed s) (hlife : ∀ e ∈ s.cards.entities,
    (e.get .form).isSome = true → (e.get .life).isSome = true) : Printed s := by
  intro q p x hx
  obtain ⟨e, he, hform⟩ := h q p x hx
  exact lifeOf_of_printed he (hlife e (CardSet.get_mem he) hform)

end

/-- **No authored game breaks.** -/
theorem no_authored_game_breaks {newV5 : Vector UInt8 16 → String → String} {sets : List LoadedSet}
    {library : CardLibrary} {scenario : Scenario} {start s : GameState}
    {tr : List (Entry GameState GameAction GameEvent)}
    (hload : ∀ set ∈ sets, ∃ document, load newV5 document = .ok set)
    (hlibrary : CardLibrary.fromSets sets = .ok library)
    (hstart : fromScenario library.coreCards scenario = .ok start) (hr : engine.Run start tr s) :
    ∀ b, s.status ≠ .broken b := by
  have hopen := opening_of_fromScenario hstart
  have hlife : ∀ s : GameState, s.cards = library.coreCards → Formed s → Printed s := by
    intro s hcards hformed
    refine hformed.printed (fun e he hform => life_of_form hload hlibrary ?_ hform)
    rw [← hcards]
    exact he
  have hrun : s.cards = library.coreCards ∧ Formed s ∧ Unbroken s := by
    refine hr.invariant (G := fun _ => True) (I := fun s => s.cards = library.coreCards ∧ Formed s ∧
      Unbroken s) hopen.rest ⟨hopen.cards, start_formed hstart, .of_playing hopen.status⟩ ?_ ?_
      (fun _ _ => trivial)
    · intro s t a es ⟨hcards, hformed, _⟩ _ ha _
      obtain ⟨hs, hst, -⟩ := accept_step ha
      exact ⟨(hst.cards hs).trans hcards, hformed.action hs hst, hst.unbroken hs⟩
    · intro s t es ⟨hcards, hformed, _⟩ hn _
      exact ⟨(drainStep_cards hn).trans hcards, hformed.drainStep hn,
        drainStep_unbroken hn (hlife s hcards hformed)⟩
  exact hrun.2.2

open Specimen in
/-- An attack that destroys a Summon: its Life has been demanded. -/
theorem no_authored_game_breaks_destruction :
    ∃ l library start tr s, load newV5 (document [mauler]) = .ok l ∧
      CardLibrary.fromSets [l] = .ok library ∧
      fromScenario library.coreCards (Fixtures.facing (Fixtures.lone (inPlay 1 "mauler"))
        (Fixtures.lone (inPlay 2 "mauler"))) = .ok start ∧ engine.Run start tr s ∧
      .summonDestroyed .main .two ∈ facts tr ∧ ∀ b, s.status ≠ .broken b := by
  have hdemo : ((shelf [mauler]).bind (fun r => (Fixtures.demoTrace r.2.coreCards
      (Fixtures.facing (Fixtures.lone (inPlay 1 "mauler")) (Fixtures.lone (inPlay 2 "mauler")))
      [.declareAttack .one .main none, .passPriority .two, .passPriority .one]).map
        (fun d => (r, d)))).map
      (fun r => decide (.summonDestroyed .main .two ∈ facts r.2.2.1)) = some true := by
    decide +kernel
  obtain ⟨⟨⟨l, library⟩, start, tr, s⟩, hr, hv⟩ := Option.map_eq_some_iff.mp hdemo
  obtain ⟨⟨l', library'⟩, hshelf, hd⟩ := Option.bind_eq_some_iff.mp hr
  obtain ⟨d, hd, heq⟩ := Option.map_eq_some_iff.mp hd
  cases heq
  obtain ⟨hload, hlibrary⟩ := library_of_shelf hshelf
  obtain ⟨hstart, hrun⟩ := Fixtures.run_of_demoTrace hd
  refine ⟨l, library, start, tr, s, hload, hlibrary, hstart, hrun, of_decide_eq_true hv, ?_⟩
  have hloaded : ∀ set ∈ [l], ∃ document, load newV5 document = .ok set := by
    intro set hset
    rw [List.mem_singleton.mp hset]
    exact ⟨document [mauler], hload⟩
  exact no_authored_game_breaks hloaded hlibrary hstart hrun

end Summoners
