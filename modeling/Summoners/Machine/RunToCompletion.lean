import Mathlib.Data.List.Basic
import Mathlib.Data.List.Chain
import Mathlib.Order.WellFounded
import Mathlib.Tactic.Common

/-! # Run-to-completion machines

A machine accepts one input at a time and, before it accepts the next, runs its internal steps
until none is left. Every step, external or internal, emits a list of facts. The definitions are
over an arbitrary state type `σ`, input type `ι` and fact type `ε`.

* `settle` is the internal loop with a bound on its iterations, `Settles` the loop without one;
  `settle_iff` says they agree.
* `Run` is a sequence of accepted inputs, each run to completion, with the trace of every step
  taken; `Run.induct` and `Run.invariant` are the induction rules over such a run, with a guard
  that every step of it is known to meet.
* `Run.linked` says that neighbouring entries of a trace are neighbouring steps, `Run.split` and
  `Run.passes` give what holds before and after every step, wherever the run passes.
* `settles_of_rank` is the termination rule, `settle_map` the symmetry rule.
* `replay` computes a run with its trace.
-/

namespace RunToCompletion
set_option autoImplicit false

variable {σ ι ε : Type}

structure Machine (σ ι ε : Type) where
  /-- One internal step, or `none` at rest. -/
  next : σ → Option (σ × List ε)
  /-- The handling of one input, or `none` when it is refused. -/
  accept : σ → ι → Option (σ × List ε)

/-- One step of a run: the state it starts in, the input it handles (none for an internal step)
and the facts it emits. -/
structure Entry (σ ι ε : Type) where
  before : σ
  input : Option ι
  emitted : List ε

/-- All facts of a trace, in order. -/
def facts (tr : List (Entry σ ι ε)) : List ε :=
  tr.flatMap Entry.emitted

@[simp] theorem facts_nil : facts ([] : List (Entry σ ι ε)) = [] := rfl

@[simp] theorem facts_cons (x : Entry σ ι ε) (tr : List (Entry σ ι ε)) :
    facts (x :: tr) = x.emitted ++ facts tr := List.flatMap_cons

@[simp] theorem facts_append (tr tr' : List (Entry σ ι ε)) :
    facts (tr ++ tr') = facts tr ++ facts tr' := List.flatMap_append

namespace Machine

variable (M : Machine σ ι ε)

/-! ## The internal loop -/

/-- The internal loop, given up after `fuel` looks at the state. -/
def settle : ℕ → σ → Option (σ × List ε)
  | 0, _ => none
  | fuel + 1, s =>
      match M.next s with
      | none => some (s, [])
      | some (t, es) => (settle fuel t).map (fun r => (r.1, es ++ r.2))

/-- `Steps s tr t`: the internal steps recorded in `tr` lead from `s` to `t`. -/
inductive Steps : σ → List (Entry σ ι ε) → σ → Prop
  | refl (s : σ) : Steps s [] s
  | cons {s t u : σ} {es : List ε} {tr : List (Entry σ ι ε)} (h : M.next s = some (t, es))
      (hs : Steps t tr u) : Steps s (⟨s, none, es⟩ :: tr) u

/-- Internal steps to a state that has none left. -/
def Settles (s : σ) (tr : List (Entry σ ι ε)) (t : σ) : Prop :=
  M.Steps s tr t ∧ M.next t = none

variable {M}

theorem Settles.of_rest {s : σ} (h : M.next s = none) : M.Settles s [] s :=
  ⟨.refl s, h⟩

theorem Settles.cons {s t u : σ} {es : List ε} {tr : List (Entry σ ι ε)}
    (h : M.next s = some (t, es)) (hs : M.Settles t tr u) :
    M.Settles s (⟨s, none, es⟩ :: tr) u :=
  ⟨.cons h hs.1, hs.2⟩

/-- A state at rest settles only in itself. -/
theorem Settles.eq_of_rest {s t : σ} {tr : List (Entry σ ι ε)} (h : M.Settles s tr t)
    (hs : M.next s = none) : t = s ∧ tr = [] := by
  obtain ⟨hst, -⟩ := h
  cases hst with
  | refl => exact ⟨rfl, rfl⟩
  | cons hn => rw [hs] at hn; cases hn

/-- Where the loop ends, and what it records on the way, is determined. -/
theorem Settles.unique {s t u : σ} {tr tr' : List (Entry σ ι ε)} (h : M.Settles s tr t)
    (h' : M.Settles s tr' u) : t = u ∧ tr = tr' := by
  obtain ⟨hs, ht⟩ := h
  induction hs generalizing tr' u with
  | refl s => exact (h'.eq_of_rest ht).imp Eq.symm Eq.symm
  | cons hn _ ih =>
      obtain ⟨hs', hu⟩ := h'
      cases hs' with
      | refl => rw [hn] at hu; cases hu
      | cons hn' hr' =>
          rw [hn] at hn'
          cases hn'
          obtain ⟨rfl, rfl⟩ := ih ⟨hr', hu⟩ ht
          exact ⟨rfl, rfl⟩

theorem settles_of_settle :
    ∀ {fuel : ℕ} {s t : σ} {es : List ε}, M.settle fuel s = some (t, es) →
      ∃ tr, M.Settles s tr t ∧ facts tr = es
  | 0, _, _, _, h => by simp [settle] at h
  | fuel + 1, s, t, es, h => by
      unfold settle at h
      cases hn : M.next s with
      | none =>
          simp only [hn, Option.some.injEq, Prod.mk.injEq] at h
          obtain ⟨rfl, rfl⟩ := h
          exact ⟨[], .of_rest hn, rfl⟩
      | some r =>
          obtain ⟨u, es'⟩ := r
          simp only [hn, Option.map_eq_some_iff] at h
          obtain ⟨⟨v, es''⟩, hv, heq⟩ := h
          cases heq
          obtain ⟨tr, htr, rfl⟩ := settles_of_settle hv
          exact ⟨_, htr.cons hn, by simp⟩

theorem settle_of_settles {s t : σ} {tr : List (Entry σ ι ε)} (h : M.Settles s tr t) :
    M.settle (tr.length + 1) s = some (t, facts tr) := by
  obtain ⟨hs, ht⟩ := h
  induction hs with
  | refl s => simp [settle, ht]
  | cons hn _ ih => rw [List.length_cons, settle, hn]; simp [ih ht]

/-- More fuel changes no answer. -/
theorem settle_mono {fuel fuel' : ℕ} (hle : fuel ≤ fuel') {s : σ} {r : σ × List ε}
    (h : M.settle fuel s = some r) : M.settle fuel' s = some r := by
  induction fuel generalizing fuel' s r with
  | zero => cases h
  | succ fuel ih =>
      obtain ⟨fuel', rfl⟩ : ∃ n, fuel' = n + 1 := ⟨fuel' - 1, by omega⟩
      unfold settle at h ⊢
      cases hn : M.next s with
      | none =>
          rw [hn] at h
          exact h
      | some p =>
          simp only [hn, Option.map_eq_some_iff] at h ⊢
          obtain ⟨r', hr', heq⟩ := h
          exact ⟨r', ih (by omega) hr', heq⟩

/-- The bounded loop finds exactly what the unbounded one reaches. -/
theorem settle_iff {s t : σ} {es : List ε} :
    (∃ fuel, M.settle fuel s = some (t, es)) ↔ ∃ tr, M.Settles s tr t ∧ facts tr = es := by
  constructor
  · rintro ⟨fuel, h⟩
    exact settles_of_settle h
  · rintro ⟨tr, h, rfl⟩
    exact ⟨_, settle_of_settles h⟩

/-- **Symmetry.** A map of states that every internal step commutes with, up to a map of the facts,
commutes with the loop. -/
theorem settle_map {f : σ → σ} {g : ε → ε}
    (hnext : ∀ s, M.next (f s) = (M.next s).map (fun r => (f r.1, r.2.map g))) :
    ∀ (fuel : ℕ) (s : σ),
      M.settle fuel (f s) = (M.settle fuel s).map (fun r => (f r.1, r.2.map g))
  | 0, _ => rfl
  | fuel + 1, s => by
      unfold settle
      rw [hnext]
      cases M.next s with
      | none => rfl
      | some r =>
          simp only [Option.map_some, settle_map hnext fuel, Option.map_map, Function.comp_def,
            List.map_append]

/-- **Termination.** A loop whose steps keep `I` and lower a well-founded rank settles. -/
theorem settles_of_rank {ρ : Type} {r : ρ → ρ → Prop} (wf : WellFounded r) (rank : σ → ρ)
    (I : σ → Prop)
    (step : ∀ {s t : σ} {es : List ε}, I s → M.next s = some (t, es) → I t ∧ r (rank t) (rank s))
    {s : σ} (hs : I s) : ∃ tr t, M.Settles s tr t := by
  induction hk : rank s using wf.induction generalizing s with
  | h k ih =>
      subst hk
      cases hn : M.next s with
      | none => exact ⟨[], s, .of_rest hn⟩
      | some p =>
          obtain ⟨t, es⟩ := p
          obtain ⟨ht, hlt⟩ := step hs hn
          obtain ⟨tr, u, htr⟩ := ih _ hlt ht rfl
          exact ⟨_, u, htr.cons hn⟩

/-! ## Calls and runs -/

variable (M)

/-- One input handled and run to completion. -/
def Call (s : σ) (i : ι) (tr : List (Entry σ ι ε)) (u : σ) : Prop :=
  ∃ t es tr', M.accept s i = some (t, es) ∧ M.Settles t tr' u ∧ tr = ⟨s, some i, es⟩ :: tr'

/-- A sequence of calls from `s₀`, with the trace of all their steps. -/
inductive Run (s₀ : σ) : List (Entry σ ι ε) → σ → Prop
  | start : Run s₀ [] s₀
  | call {s u : σ} {i : ι} {tr tr' : List (Entry σ ι ε)} (hr : Run s₀ tr s)
      (hc : M.Call s i tr' u) : Run s₀ (tr ++ tr') u

variable {M}

theorem Call.rest {s u : σ} {i : ι} {tr : List (Entry σ ι ε)} (h : M.Call s i tr u) :
    M.next u = none := by
  obtain ⟨_, _, _, _, hs, _⟩ := h
  exact hs.2

theorem Run.rest {s₀ s : σ} {tr : List (Entry σ ι ε)} (h₀ : M.next s₀ = none)
    (h : M.Run s₀ tr s) : M.next s = none := by
  cases h with
  | start => exact h₀
  | call _ hc => exact hc.rest

/-- The rule for one loop: what every step that meets the guard `G` keeps, the loop keeps, with the
trace so far at hand. -/
theorem Steps.induct {G : Entry σ ι ε → Prop} {I : List (Entry σ ι ε) → σ → Prop}
    (step : ∀ {tr : List (Entry σ ι ε)} {s t : σ} {es : List ε}, I tr s → M.next s = some (t, es) →
      G ⟨s, none, es⟩ → I (tr ++ [⟨s, none, es⟩]) t)
    {s t : σ} {tr₀ tr : List (Entry σ ι ε)} (h : M.Steps s tr t) (hg : ∀ x ∈ tr, G x)
    (hs : I tr₀ s) : I (tr₀ ++ tr) t := by
  induction h generalizing tr₀ with
  | refl s => simpa using hs
  | cons hn _ ih =>
      have h' := ih (fun x hx => hg x (List.mem_cons_of_mem _ hx))
        (step hs hn (hg _ List.mem_cons_self))
      simpa using h'

/-- The rule for one call. -/
theorem Call.induct {I : List (Entry σ ι ε) → σ → Prop} {s u : σ} {i : ι}
    {tr : List (Entry σ ι ε)} (h : M.Call s i tr u)
    (accept : ∀ {t : σ} {es : List ε}, M.accept s i = some (t, es) → I [⟨s, some i, es⟩] t)
    (step : ∀ {tr : List (Entry σ ι ε)} {s t : σ} {es : List ε}, I tr s → M.next s = some (t, es) →
      I (tr ++ [⟨s, none, es⟩]) t) : I tr u := by
  obtain ⟨t, es, tr', ha, hs, rfl⟩ := h
  exact hs.1.induct (G := fun _ => True) (fun hI hn _ => step hI hn) (fun _ _ => trivial)
    (accept ha)

/-- **The rule for runs.** `I` relates the trace so far to the state. -/
theorem Run.induct {G : Entry σ ι ε → Prop} {I : List (Entry σ ι ε) → σ → Prop} {s₀ : σ}
    (h₀ : M.next s₀ = none) (start : I [] s₀)
    (accept : ∀ {tr : List (Entry σ ι ε)} {s t : σ} {i : ι} {es : List ε}, I tr s →
      M.next s = none → M.accept s i = some (t, es) → G ⟨s, some i, es⟩ →
      I (tr ++ [⟨s, some i, es⟩]) t)
    (step : ∀ {tr : List (Entry σ ι ε)} {s t : σ} {es : List ε}, I tr s → M.next s = some (t, es) →
      G ⟨s, none, es⟩ → I (tr ++ [⟨s, none, es⟩]) t)
    {s : σ} {tr : List (Entry σ ι ε)} (h : M.Run s₀ tr s) (hg : ∀ x ∈ tr, G x) : I tr s := by
  induction h with
  | start => exact start
  | call hr hc ih =>
      obtain ⟨t, es, tr', ha, hs, rfl⟩ := hc
      have hI := ih (fun x hx => hg x (List.mem_append_left _ hx))
      have hg' : ∀ x ∈ _ :: tr', G x := fun x hx => hg x (List.mem_append_right _ hx)
      have hA := accept hI (hr.rest h₀) ha (hg' _ List.mem_cons_self)
      have := hs.1.induct step (fun x hx => hg' x (List.mem_cons_of_mem _ hx)) hA
      simpa using this

/-- An invariant of the states alone. -/
theorem Run.invariant {G : Entry σ ι ε → Prop} {I : σ → Prop} {s₀ : σ}
    (h₀ : M.next s₀ = none) (start : I s₀)
    (accept : ∀ {s t : σ} {i : ι} {es : List ε}, I s → M.next s = none →
      M.accept s i = some (t, es) → G ⟨s, some i, es⟩ → I t)
    (step : ∀ {s t : σ} {es : List ε}, I s → M.next s = some (t, es) → G ⟨s, none, es⟩ → I t)
    {s : σ} {tr : List (Entry σ ι ε)} (h : M.Run s₀ tr s) (hg : ∀ x ∈ tr, G x) : I s :=
  h.induct (I := fun _ s => I s) h₀ start (fun hI hn ha hG => accept hI hn ha hG)
    (fun hI hn hG => step hI hn hG) hg

/-- Every step of a run starts in a state that has the invariant. -/
theorem Run.forall_before {G : Entry σ ι ε → Prop} {I : σ → Prop} {s₀ : σ}
    (h₀ : M.next s₀ = none) (start : I s₀)
    (accept : ∀ {s t : σ} {i : ι} {es : List ε}, I s → M.next s = none →
      M.accept s i = some (t, es) → G ⟨s, some i, es⟩ → I t)
    (step : ∀ {s t : σ} {es : List ε}, I s → M.next s = some (t, es) → G ⟨s, none, es⟩ → I t)
    {s : σ} {tr : List (Entry σ ι ε)} (h : M.Run s₀ tr s) (hg : ∀ x ∈ tr, G x) :
    ∀ x ∈ tr, I x.before := by
  have := h.induct (I := fun tr s => I s ∧ ∀ x ∈ tr, I x.before) h₀ ⟨start, by simp⟩
    (fun hI hn ha hG => ⟨accept hI.1 hn ha hG, by
      intro x hx
      rcases List.mem_append.mp hx with hx | hx
      · exact hI.2 x hx
      · rw [List.mem_singleton.mp hx]; exact hI.1⟩)
    (fun hI hn hG => ⟨step hI.1 hn hG, by
      intro x hx
      rcases List.mem_append.mp hx with hx | hx
      · exact hI.2 x hx
      · rw [List.mem_singleton.mp hx]; exact hI.1⟩) hg
  exact this.2

/-! ## Neighbouring steps -/

variable (M)

/-- The step `x` leads to `t`. -/
def Takes (x : Entry σ ι ε) (t : σ) : Prop :=
  match x.input with
  | none => M.next x.before = some (t, x.emitted)
  | some i => M.accept x.before i = some (t, x.emitted)

/-- `y` is taken right after `x`. -/
def Linked (x y : Entry σ ι ε) : Prop := M.Takes x y.before ∧ ∃ t, M.Takes y t

variable {M}

theorem Takes.next {x : Entry σ ι ε} {t : σ} (h : M.Takes x t) (hx : x.input = none) :
    M.next x.before = some (t, x.emitted) := by
  unfold Takes at h
  rwa [hx] at h

theorem Takes.accept {x : Entry σ ι ε} {t : σ} {i : ι} (h : M.Takes x t) (hx : x.input = some i) :
    M.accept x.before i = some (t, x.emitted) := by
  unfold Takes at h
  rwa [hx] at h

theorem Takes.unique {x : Entry σ ι ε} {t u : σ} (h : M.Takes x t) (h' : M.Takes x u) : t = u := by
  cases hx : x.input with
  | none =>
      have heq := (h.next hx).symm.trans (h'.next hx)
      cases heq
      rfl
  | some i =>
      have heq := (h.accept hx).symm.trans (h'.accept hx)
      cases heq
      rfl

/-- One more step behind a chain of them. -/
theorem isChain_linked_concat {tr : List (Entry σ ι ε)} {x : Entry σ ι ε} {t : σ}
    (h : tr.IsChain M.Linked ∧ ∀ y ∈ tr.getLast?, M.Takes y x.before) (hx : M.Takes x t) :
    (tr ++ [x]).IsChain M.Linked ∧ ∀ y ∈ (tr ++ [x]).getLast?, M.Takes y t := by
  refine ⟨List.isChain_append.mpr ⟨h.1, List.isChain_singleton x, fun y hy z hz => ?_⟩,
    fun y hy => ?_⟩
  · have hz : z = x := by simpa using hz.symm
    rw [hz]
    exact ⟨h.2 y hy, t, hx⟩
  · have hy : y = x := by simpa using hy.symm
    rw [hy]
    exact hx

/-- The trace of a run is one step after the other. -/
theorem Run.linked {s₀ s : σ} {tr : List (Entry σ ι ε)} (h₀ : M.next s₀ = none)
    (h : M.Run s₀ tr s) : tr.IsChain M.Linked := by
  have hrun : tr.IsChain M.Linked ∧ ∀ y ∈ tr.getLast?, M.Takes y s := by
    refine h.induct (G := fun _ => True)
      (I := fun tr s => tr.IsChain M.Linked ∧ ∀ y ∈ tr.getLast?, M.Takes y s) h₀
      ⟨.nil, by simp⟩ ?_ ?_ (fun _ _ => trivial)
    · intro tr s t i es hI _ ha _
      exact isChain_linked_concat hI ha
    · intro tr s t es hI hn _
      exact isChain_linked_concat hI hn
  exact hrun.1

/-- A property of every element of a list and what stands before it, with one more element. -/
theorem forall_split_concat {α : Type} {P : List α → α → Prop} {l : List α} {a : α}
    (h : ∀ {pre post : List α} {x : α}, l = pre ++ x :: post → P pre x) (ha : P l a)
    {pre post : List α} {x : α} (hsplit : l ++ [a] = pre ++ x :: post) : P pre x := by
  rcases List.eq_nil_or_concat post with rfl | ⟨front, last, rfl⟩
  · obtain ⟨rfl, hx⟩ := List.append_inj' hsplit rfl
    cases hx
    exact ha
  · rw [List.concat_eq_append, ← List.cons_append, ← List.append_assoc] at hsplit
    exact h (List.append_inj' hsplit rfl).1

/-- **The rule for every step of a run.** What holds of the trace so far and the state holds before
and after each step of it. -/
theorem Run.split {I : List (Entry σ ι ε) → σ → Prop} {s₀ : σ} (h₀ : M.next s₀ = none)
    (start : I [] s₀)
    (accept : ∀ {tr : List (Entry σ ι ε)} {s t : σ} {i : ι} {es : List ε}, I tr s →
      M.next s = none → M.accept s i = some (t, es) → I (tr ++ [⟨s, some i, es⟩]) t)
    (step : ∀ {tr : List (Entry σ ι ε)} {s t : σ} {es : List ε}, I tr s → M.next s = some (t, es) →
      I (tr ++ [⟨s, none, es⟩]) t)
    {s : σ} {tr : List (Entry σ ι ε)} (h : M.Run s₀ tr s) :
    I tr s ∧ ∀ {pre post : List (Entry σ ι ε)} {x : Entry σ ι ε}, tr = pre ++ x :: post →
      I pre x.before ∧ ∃ t, M.Takes x t ∧ I (pre ++ [x]) t := by
  refine h.induct (G := fun _ => True)
    (I := fun tr s => I tr s ∧ ∀ {pre post : List (Entry σ ι ε)} {x : Entry σ ι ε},
      tr = pre ++ x :: post → I pre x.before ∧ ∃ t, M.Takes x t ∧ I (pre ++ [x]) t)
    h₀ ⟨start, fun hsplit => by simp at hsplit⟩ ?_ ?_ (fun _ _ => trivial)
  · intro tr s t i es hI hn ha _
    have ht := accept hI.1 hn ha
    exact ⟨ht, forall_split_concat (P := fun pre x => I pre x.before ∧ ∃ t, M.Takes x t ∧
      I (pre ++ [x]) t) (a := ⟨s, some i, es⟩) hI.2 ⟨hI.1, t, ha, ht⟩⟩
  · intro tr s t es hI hn _
    have ht := step hI.1 hn
    exact ⟨ht, forall_split_concat (P := fun pre x => I pre x.before ∧ ∃ t, M.Takes x t ∧
      I (pre ++ [x]) t) (a := ⟨s, none, es⟩) hI.2 ⟨hI.1, t, hn, ht⟩⟩

/-- After the steps `pre` of a trace that ends in `s`, the machine is in `u`. -/
def Passes (tr : List (Entry σ ι ε)) (s : σ) (pre : List (Entry σ ι ε)) (u : σ) : Prop :=
  (pre = tr ∧ u = s) ∨ ∃ x post, tr = pre ++ x :: post ∧ u = x.before

theorem Passes.unique {tr pre : List (Entry σ ι ε)} {s u v : σ} (h : Passes tr s pre u)
    (h' : Passes tr s pre v) : u = v := by
  rcases h with ⟨rfl, rfl⟩ | ⟨x, post, heq, rfl⟩
  · rcases h' with ⟨-, rfl⟩ | ⟨y, post', heq', -⟩
    · rfl
    · simp at heq'
  · rcases h' with ⟨rfl, -⟩ | ⟨y, post', heq', rfl⟩
    · simp at heq
    · rw [heq] at heq'
      have hcons := List.append_cancel_left heq'
      cases hcons
      rfl

/-- **The rule for every state of a run.** What every step keeps holds wherever the run passes. -/
theorem Run.passes {I : List (Entry σ ι ε) → σ → Prop} {s₀ : σ} (h₀ : M.next s₀ = none)
    (start : I [] s₀)
    (accept : ∀ {tr : List (Entry σ ι ε)} {s t : σ} {i : ι} {es : List ε}, I tr s →
      M.next s = none → M.accept s i = some (t, es) → I (tr ++ [⟨s, some i, es⟩]) t)
    (step : ∀ {tr : List (Entry σ ι ε)} {s t : σ} {es : List ε}, I tr s → M.next s = some (t, es) →
      I (tr ++ [⟨s, none, es⟩]) t)
    {s u : σ} {tr pre : List (Entry σ ι ε)} (h : M.Run s₀ tr s) (hu : Passes tr s pre u) :
    I pre u := by
  obtain ⟨hlast, hsplit⟩ := h.split h₀ start accept step
  rcases hu with ⟨rfl, rfl⟩ | ⟨x, post, heq, rfl⟩
  · exact hlast
  · exact (hsplit heq).1

/-! ## Recording a run -/

theorem Run.cons {s u v : σ} {i : ι} {tr tr' : List (Entry σ ι ε)} (hc : M.Call s i tr u)
    (hr : M.Run u tr' v) : M.Run s (tr ++ tr') v := by
  induction hr with
  | start => simpa using Run.call .start hc
  | call _ hc' ih =>
      rw [← List.append_assoc]
      exact ih.call hc'

variable (M)

/-- The internal loop with its record, given up after `fuel` looks at the state. -/
def record : ℕ → σ → Option (List (Entry σ ι ε) × σ)
  | 0, _ => none
  | fuel + 1, s =>
      match M.next s with
      | none => some ([], s)
      | some (t, es) => (record fuel t).map (fun r => (⟨s, none, es⟩ :: r.1, r.2))

/-- A list of inputs handled one after the other, each with `fuel` looks at the state. -/
def replay (fuel : ℕ) : σ → List ι → Option (List (Entry σ ι ε) × σ)
  | s, [] => some ([], s)
  | s, i :: inputs =>
      match M.accept s i with
      | none => none
      | some (t, es) =>
          match M.record fuel t with
          | none => none
          | some (tr, u) =>
              (replay fuel u inputs).map (fun r => (⟨s, some i, es⟩ :: tr ++ r.1, r.2))

variable {M}

theorem settles_of_record : ∀ {fuel : ℕ} {s t : σ} {tr : List (Entry σ ι ε)},
    M.record fuel s = some (tr, t) → M.Settles s tr t
  | 0, _, _, _, h => by cases h
  | fuel + 1, s, t, tr, h => by
      unfold record at h
      cases hn : M.next s with
      | none =>
          rw [hn] at h
          cases h
          exact .of_rest hn
      | some p =>
          obtain ⟨u, es⟩ := p
          rw [hn] at h
          obtain ⟨r, hr, heq⟩ := Option.map_eq_some_iff.mp h
          cases heq
          exact (settles_of_record hr).cons hn

theorem run_of_replay {fuel : ℕ} : ∀ {inputs : List ι} {s t : σ} {tr : List (Entry σ ι ε)},
    M.replay fuel s inputs = some (tr, t) → M.Run s tr t
  | [], _, _, _, h => by cases h; exact .start
  | i :: inputs, s, t, tr, h => by
      unfold replay at h
      cases ha : M.accept s i with
      | none =>
          rw [ha] at h
          cases h
      | some p =>
          obtain ⟨u, es⟩ := p
          simp only [ha] at h
          cases hrec : M.record fuel u with
          | none =>
              rw [hrec] at h
              cases h
          | some q =>
              obtain ⟨tr', v⟩ := q
              simp only [hrec] at h
              obtain ⟨r, hr, heq⟩ := Option.map_eq_some_iff.mp h
              cases heq
              exact Run.cons ⟨_, _, _, ha, settles_of_record hrec, rfl⟩ (run_of_replay hr)

end Machine

end RunToCompletion
