import Mathlib.Data.List.Forall2
import Mathlib.Data.List.Induction
import Mathlib.Data.Nat.Notation
import Mathlib.Tactic.Common

/-! # Checked conversions

Readers in `Except ε` that turn a raw value into a checked one or report the first error met. The
definitions and rules are over arbitrary error and value types.

* `bind_ok_iff`, `check_ok_iff`, `guard_ok_iff` and `refuse_ok_iff` peel a sequence of checks apart,
  `bind_error_iff` finds the one that failed.
* `forM_ok_iff` says when a loop of checks succeeds, and `FailsOnly` bounds the errors of a reader,
  with one rule for each way to put readers together.
* `collect` reads a list in order with the index of each entry, `collectWith` does so with a state
  handed from entry to entry.
* `of_collect` and `of_collectWith` carry a property of everything a reader produces to everything
  the list reader produces.
* `forall₂_of_collect` and `forall₂_of_collectWith` relate the entries read to the entries produced,
  `forall₂_comp` puts two readers together, and `collectWith_induct` is the invariant rule for a
  reader with a state.
* `foldlM_induct` is the invariant rule for a loop that can stop with an error.
* `enumerated` is such a loop with the index of each entry. `enumerated_spec` says when it stops and
  with what, from what each pass does where the invariant holds.
-/

namespace Checked
set_option autoImplicit false

variable {ε α β σ : Type}

@[simp] theorem ok_bind {a : α} {f : α → Except ε β} : (Except.ok a >>= f) = f a := rfl

theorem bind_ok_iff {x : Except ε α} {f : α → Except ε β} {b : β} :
    x >>= f = .ok b ↔ ∃ a, x = .ok a ∧ f a = .ok b := by
  cases x with
  | error e => simp [bind, Except.bind]
  | ok a => simp [bind, Except.bind]

theorem bind_error_iff {x : Except ε α} {f : α → Except ε β} {e : ε} :
    x >>= f = .error e ↔ x = .error e ∨ ∃ a, x = .ok a ∧ f a = .error e := by
  cases x with
  | error e' => simp [bind, Except.bind]
  | ok a => simp [bind, Except.bind]

/-- A reader that only checks, in front of another one. -/
theorem check_ok_iff {x : Except ε Unit} {f : Unit → Except ε β} {b : β} :
    x >>= f = .ok b ↔ x = .ok () ∧ f () = .ok b := by
  rw [bind_ok_iff]
  constructor
  · rintro ⟨⟨⟩, hx, hf⟩
    exact ⟨hx, hf⟩
  · intro h
    exact ⟨(), h⟩

theorem pure_ok_iff {a b : α} : (pure a : Except ε α) = .ok b ↔ a = b := by
  simp [pure, Except.pure]

/-- A check in front of a reader. -/
theorem guard_ok_iff {p : Prop} [Decidable p] {x : Except ε α} {e : ε} {a : α} :
    (if p then x else .error e) = .ok a ↔ p ∧ x = .ok a := by
  by_cases h : p <;> simp [h]

/-- A refusal in front of a reader. -/
theorem refuse_ok_iff {p : Prop} [Decidable p] {x : Except ε α} {e : ε} {a : α} :
    (if p then .error e else x) = .ok a ↔ ¬p ∧ x = .ok a := by
  by_cases h : p <;> simp [h]

/-- A loop of checks. -/
theorem forM_ok_iff {f : α → Except ε PUnit} {xs : List α} :
    xs.forM f = .ok () ↔ ∀ x ∈ xs, f x = .ok () := by
  induction xs with
  | nil => exact ⟨fun _ _ hx => absurd hx List.not_mem_nil, fun _ => rfl⟩
  | cons x xs ih =>
      rw [show (x :: xs).forM f = (f x >>= fun _ => xs.forM f) from rfl, check_ok_iff, ih,
        List.forall_mem_cons]

/-- A computation that fails, if it does, with errors of one kind. -/
def FailsOnly (P : ε → Prop) (x : Except ε α) : Prop := ∀ e, x = .error e → P e

namespace FailsOnly

variable {P : ε → Prop}

theorem ok (a : α) : FailsOnly P (.ok a : Except ε α) := by
  intro e h
  cases h

theorem error {e : ε} (h : P e) : FailsOnly P (.error e : Except ε α) := by
  intro e' h'
  cases h'
  exact h

theorem bind {x : Except ε α} {f : α → Except ε β} (hx : FailsOnly P x)
    (hf : ∀ a, FailsOnly P (f a)) : FailsOnly P (x >>= f) := by
  intro e h
  obtain h | ⟨a, -, h⟩ := bind_error_iff.mp h
  · exact hx e h
  · exact hf a e h

theorem ite {p : Prop} [Decidable p] {x y : Except ε α} (hx : FailsOnly P x)
    (hy : FailsOnly P y) : FailsOnly P (if p then x else y) := by
  split
  · exact hx
  · exact hy

theorem forM {f : α → Except ε PUnit} {xs : List α} (h : ∀ a ∈ xs, FailsOnly P (f a)) :
    FailsOnly P (xs.forM f) := by
  induction xs with
  | nil => exact ok _
  | cons x xs ih =>
      exact bind (h x List.mem_cons_self) (fun _ => ih (fun a ha => h a (List.mem_cons_of_mem _ ha)))

theorem mapError {ε' : Type} {g : ε' → ε} {x : Except ε' α} (h : ∀ e, P (g e)) :
    FailsOnly P (x.mapError g) := by
  cases x with
  | ok a => exact ok a
  | error e => exact error (h e)

end FailsOnly

/-- `into_iter().enumerate().map(..).collect::<Result<Vec<_>, _>>()`, counting from `index`. -/
def collect (f : ℕ → α → Except ε β) : ℕ → List α → Except ε (List β)
  | _, [] => .ok []
  | index, x :: xs => do
      let y ← f index x
      let ys ← collect f (index + 1) xs
      pure (y :: ys)

/-- The same with a state that every entry reads and replaces. -/
def collectWith (f : ℕ → σ → α → Except ε (σ × β)) : ℕ → σ → List α → Except ε (σ × List β)
  | _, s, [] => .ok (s, [])
  | index, s, x :: xs => do
      let (s', y) ← f index s x
      let (s'', ys) ← collectWith f (index + 1) s' xs
      pure (s'', y :: ys)

theorem of_collect {f : ℕ → α → Except ε β} {P : β → Prop}
    {index : ℕ} {xs : List α} {ys : List β} (hc : collect f index xs = .ok ys)
    (h : ∀ {index x y}, x ∈ xs → f index x = .ok y → P y) : ∀ y ∈ ys, P y := by
  induction xs generalizing index ys with
  | nil =>
      cases hc
      simp
  | cons x xs ih =>
      simp only [collect, bind_ok_iff, pure_ok_iff] at hc
      obtain ⟨y, hy, rest, hrest, rfl⟩ := hc
      intro z hz
      rcases List.mem_cons.mp hz with rfl | hz
      · exact h List.mem_cons_self hy
      · exact ih hrest (fun hx => h (List.mem_cons_of_mem _ hx)) z hz

theorem of_collectWith {f : ℕ → σ → α → Except ε (σ × β)} {P : β → Prop}
    {index : ℕ} {s s' : σ} {xs : List α} {ys : List β} (hc : collectWith f index s xs = .ok (s', ys))
    (h : ∀ {index s x s' y}, x ∈ xs → f index s x = .ok (s', y) → P y) : ∀ y ∈ ys, P y := by
  induction xs generalizing index s ys with
  | nil =>
      cases hc
      simp
  | cons x xs ih =>
      simp only [collectWith, bind_ok_iff, pure_ok_iff] at hc
      obtain ⟨⟨s₁, y⟩, hy, ⟨s₂, rest⟩, hrest, heq⟩ := hc
      cases heq
      intro z hz
      rcases List.mem_cons.mp hz with rfl | hz
      · exact h List.mem_cons_self hy
      · exact ih hrest (fun hx => h (List.mem_cons_of_mem _ hx)) z hz

theorem forall₂_of_collect {f : ℕ → α → Except ε β} {R : α → β → Prop} {index : ℕ} {xs : List α}
    {ys : List β} (hc : collect f index xs = .ok ys)
    (h : ∀ {index x y}, f index x = .ok y → R x y) : List.Forall₂ R xs ys := by
  induction xs generalizing index ys with
  | nil =>
      cases hc
      exact .nil
  | cons x xs ih =>
      simp only [collect, bind_ok_iff, pure_ok_iff] at hc
      obtain ⟨y, hy, rest, hrest, rfl⟩ := hc
      exact .cons (h hy) (ih hrest)

/-- An invariant of the state, the entries read and the entries produced so far. -/
theorem collectWith_induct {f : ℕ → σ → α → Except ε (σ × β)} {I : σ → List α → List β → Prop}
    {index : ℕ} {s s' : σ} {xs : List α} {ys : List β}
    (hc : collectWith f index s xs = .ok (s', ys)) (h : I s [] [])
    (hstep : ∀ {index s s' x y before produced}, I s before produced →
      f index s x = .ok (s', y) → I s' (before ++ [x]) (produced ++ [y])) : I s' xs ys := by
  have hfrom : ∀ {xs : List α} {index : ℕ} {s : σ} {before : List α} {produced ys : List β},
      collectWith f index s xs = .ok (s', ys) → I s before produced →
        I s' (before ++ xs) (produced ++ ys) := by
    intro xs
    induction xs with
    | nil =>
        intro index s before produced ys hc h
        cases hc
        simpa using h
    | cons x xs ih =>
        intro index s before produced ys hc h
        simp only [collectWith, bind_ok_iff, pure_ok_iff] at hc
        obtain ⟨⟨s₁, y⟩, hy, ⟨s₂, rest⟩, hrest, heq⟩ := hc
        cases heq
        simpa using ih hrest (hstep h hy)
  exact hfrom hc h

theorem forall₂_of_collectWith {f : ℕ → σ → α → Except ε (σ × β)} {R : α → β → Prop} {index : ℕ}
    {s s' : σ} {xs : List α} {ys : List β} (hc : collectWith f index s xs = .ok (s', ys))
    (h : ∀ {index s x s' y}, f index s x = .ok (s', y) → R x y) : List.Forall₂ R xs ys := by
  induction xs generalizing index s ys with
  | nil =>
      cases hc
      exact .nil
  | cons x xs ih =>
      simp only [collectWith, bind_ok_iff, pure_ok_iff] at hc
      obtain ⟨⟨s₁, y⟩, hy, ⟨s₂, rest⟩, hrest, heq⟩ := hc
      cases heq
      exact .cons (h hy) (ih hrest)

/-- Two readers one after the other. -/
theorem forall₂_comp {γ : Type} {R : α → β → Prop} {S : β → γ → Prop} {T : α → γ → Prop}
    (h : ∀ {x y z}, R x y → S y z → T x z) {xs : List α} {ys : List β} {zs : List γ}
    (hR : List.Forall₂ R xs ys) (hS : List.Forall₂ S ys zs) : List.Forall₂ T xs zs := by
  induction hR generalizing zs with
  | nil =>
      cases hS
      exact .nil
  | cons hxy _ ih =>
      cases hS with
      | cons hyz hrest => exact .cons (h hxy hyz) (ih hrest)

theorem forall₂_mem_left {R : α → β → Prop} {xs : List α} {ys : List β} (h : List.Forall₂ R xs ys)
    {x : α} (hx : x ∈ xs) : ∃ y ∈ ys, R x y := by
  induction h with
  | nil => cases hx
  | @cons a b xs ys hab _ ih =>
      rcases List.mem_cons.mp hx with rfl | hx
      · exact ⟨b, List.mem_cons_self, hab⟩
      · obtain ⟨y, hy, hxy⟩ := ih hx
        exact ⟨y, List.mem_cons_of_mem _ hy, hxy⟩

theorem forall₂_mem_right {R : α → β → Prop} {xs : List α} {ys : List β} (h : List.Forall₂ R xs ys)
    {y : β} (hy : y ∈ ys) : ∃ x ∈ xs, R x y :=
  forall₂_mem_left h.flip hy

/-- An invariant of the state and the entries consumed so far. -/
theorem foldlM_induct {f : σ → α → Except ε σ} {I : σ → List α → Prop} {s s' : σ} {xs : List α}
    (hc : xs.foldlM f s = .ok s') (h : I s [])
    (hstep : ∀ {s s' x before}, I s before → f s x = .ok s' → I s' (before ++ [x])) : I s' xs := by
  have hfrom : ∀ {xs : List α} {s : σ} {before : List α}, xs.foldlM f s = .ok s' → I s before →
      I s' (before ++ xs) := by
    intro xs
    induction xs with
    | nil =>
        intro s before hc h
        cases hc
        simpa using h
    | cons x xs ih =>
        intro s before hc h
        rw [List.foldlM_cons, bind_ok_iff] at hc
        obtain ⟨s₁, hs₁, hrest⟩ := hc
        simpa using ih hrest (hstep h hs₁)
  exact hfrom hc h

/-- `for (index, x) in xs.into_iter().enumerate()` over a state, counting from `index`. -/
def enumerated (f : ℕ → σ → α → Except ε σ) : ℕ → σ → List α → Except ε σ
  | _, s, [] => .ok s
  | index, s, x :: xs => do
      let s' ← f index s x
      enumerated f (index + 1) s' xs

/-- What one pass does after `before`: the entry is fit and the invariant is kept, or the entry is
unfit and the error reported is one it deserves. -/
def PassSpec (I : σ → List α → Prop) (Fit : List α → α → Prop) (Deserves : List α → α → ε → Prop)
    (before : List α) (x : α) : Except ε σ → Prop
  | .ok s => Fit before x ∧ I s (before ++ [x])
  | .error e => ¬Fit before x ∧ Deserves before x e

/-- The loop gets to its end exactly where every entry is fit after those before it. -/
theorem enumerated_spec {f : ℕ → σ → α → Except ε σ} {I : σ → List α → Prop}
    {Fit : List α → α → Prop} {Deserves : List α → α → ε → Prop} {s : σ} (h : I s []) (xs : List α)
    (hstep : ∀ {s before x}, I s before → PassSpec I Fit Deserves before x (f before.length s x)) :
    match enumerated f 0 s xs with
    | .ok s' => I s' xs ∧ ∀ before x after, xs = before ++ x :: after → Fit before x
    | .error e => ∃ before x after, xs = before ++ x :: after ∧ ¬Fit before x ∧
        Deserves before x e := by
  have hfrom : ∀ {rest before : List α} {s : σ}, I s before →
      (∀ front x after, before = front ++ x :: after → Fit front x) →
      match enumerated f before.length s rest with
      | .ok s' => I s' (before ++ rest) ∧
          ∀ front x after, before ++ rest = front ++ x :: after → Fit front x
      | .error e => ∃ front x after, before ++ rest = front ++ x :: after ∧ ¬Fit front x ∧
          Deserves front x e := by
    intro rest
    induction rest with
    | nil =>
        intro before s hI hfit
        simpa [enumerated] using ⟨hI, hfit⟩
    | cons x rest ih =>
        intro before s hI hfit
        have hpass := hstep (x := x) hI
        unfold enumerated
        cases hf : f before.length s x with
        | error e =>
            rw [hf] at hpass
            exact ⟨before, x, rest, rfl, hpass.1, hpass.2⟩
        | ok s' =>
            rw [hf] at hpass
            have hlonger : ∀ front y after, before ++ [x] = front ++ y :: after → Fit front y := by
              intro front y after heq
              cases after using List.reverseRecOn with
              | nil =>
                  obtain ⟨rfl, hxy⟩ := List.append_inj' heq rfl
                  cases hxy
                  exact hpass.1
              | append_singleton after z =>
                  rw [← List.cons_append, ← List.append_assoc] at heq
                  exact hfit front y after (List.append_inj' heq rfl).1
            have hrest := ih hpass.2 hlonger
            rw [List.length_append, List.length_singleton, List.append_assoc] at hrest
            exact hrest
  exact @hfrom xs [] s h (by simp)

end Checked
