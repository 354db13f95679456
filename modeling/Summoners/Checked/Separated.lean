import Mathlib.Data.List.Chain
import Mathlib.Data.List.Induction
import Mathlib.Tactic.Common

/-! # Parts with a separator between

A list is cut at a separator into parts that do not hold it. The parts are all nonempty exactly if
no separator stands at an end or next to another.
-/

namespace Checked
set_option autoImplicit false

variable {α : Type} {sep : α}

/-- No two separators stand next to each other. -/
def Apart (sep : α) (l : List α) : Prop := l.IsChain (fun a b => ¬(a = sep ∧ b = sep))

/-- The parts between the separators, none of them empty. -/
structure Runs (sep : α) (l : List α) (runs : List (List α)) : Prop where
  joined : [sep].intercalate runs = l
  nonempty : ∀ run ∈ runs, run ≠ []
  free : ∀ run ∈ runs, sep ∉ run

theorem Runs.single {a : α} (h : a ≠ sep) : Runs sep [a] [[a]] where
  joined := by simp [List.intercalate]
  nonempty := by simp
  free := by simpa using h.symm

theorem intercalate_cons_cons (run next : List α) (runs : List (List α)) :
    [sep].intercalate (run :: next :: runs) = run ++ sep :: [sep].intercalate (next :: runs) := by
  simp [List.intercalate]

theorem intercalate_ne_nil {run : List α} (h : run ≠ []) (runs : List (List α)) :
    [sep].intercalate (run :: runs) ≠ [] := by
  cases runs with
  | nil => simpa [List.intercalate] using h
  | cons next runs =>
    rw [intercalate_cons_cons]
    exact List.append_ne_nil_of_left_ne_nil h _

theorem mem_intercalate {a : α} {runs : List (List α)} (h : a ∈ [sep].intercalate runs) :
    a = sep ∨ ∃ run ∈ runs, a ∈ run := by
  induction runs with
  | nil => cases h
  | cons run runs ih =>
    cases runs with
    | nil =>
      right
      exact ⟨run, List.mem_cons_self, by simpa [List.intercalate] using h⟩
    | cons next runs =>
      rw [intercalate_cons_cons, List.mem_append, List.mem_cons] at h
      rcases h with h | h | h
      · exact .inr ⟨run, List.mem_cons_self, h⟩
      · exact .inl h
      · rcases ih h with h | ⟨r, hr, ha⟩
        · exact .inl h
        · exact .inr ⟨r, List.mem_cons_of_mem _ hr, ha⟩

theorem mem_intercalate_of_mem {a : α} {run : List α} {runs : List (List α)} (h : run ∈ runs)
    (ha : a ∈ run) : a ∈ [sep].intercalate runs := by
  induction runs with
  | nil => cases h
  | cons first runs ih =>
    cases runs with
    | nil =>
      rw [List.mem_singleton] at h
      subst h
      simpa [List.intercalate] using ha
    | cons next runs =>
      rw [intercalate_cons_cons, List.mem_append, List.mem_cons]
      rcases List.mem_cons.mp h with rfl | h
      · exact .inl ha
      · exact .inr (.inr (ih h))

/-- In front of a separator a new part begins. -/
theorem Runs.part {a : α} {l : List α} {runs : List (List α)} (h : Runs sep l runs) (ha : a ≠ sep)
    (hruns : runs ≠ []) : Runs sep (a :: sep :: l) ([a] :: runs) := by
  obtain ⟨next, runs, rfl⟩ := List.exists_cons_of_ne_nil hruns
  refine ⟨?_, ?_, ?_⟩
  · rw [intercalate_cons_cons, h.joined]
    rfl
  · intro run hrun
    rcases List.mem_cons.mp hrun with rfl | hrun
    · exact List.cons_ne_nil _ _
    · exact h.nonempty run hrun
  · intro run hrun
    rcases List.mem_cons.mp hrun with rfl | hrun
    · simpa using ha.symm
    · exact h.free run hrun

/-- In front of anything else the first part grows. -/
theorem Runs.grown {a : α} {l : List α} {run : List α} {runs : List (List α)}
    (h : Runs sep l (run :: runs)) (ha : a ≠ sep) : Runs sep (a :: l) ((a :: run) :: runs) := by
  refine ⟨?_, ?_, ?_⟩
  · rw [← h.joined]
    cases runs with
    | nil => simp [List.intercalate]
    | cons next runs => rw [intercalate_cons_cons, intercalate_cons_cons, List.cons_append]
  · intro r hr
    rcases List.mem_cons.mp hr with rfl | hr
    · exact List.cons_ne_nil _ _
    · exact h.nonempty r (List.mem_cons_of_mem _ hr)
  · intro r hr
    rcases List.mem_cons.mp hr with rfl | hr
    · exact List.not_mem_cons_of_ne_of_not_mem ha.symm (h.free run List.mem_cons_self)
    · exact h.free r (List.mem_cons_of_mem _ hr)

theorem Runs.ne_nil {l : List α} {runs : List (List α)} (h : Runs sep l runs) (hl : l ≠ []) :
    runs ≠ [] := by
  rintro rfl
  exact hl h.joined.symm

theorem exists_runs [DecidableEq α] {l : List α} (hl : l ≠ []) (hfirst : l.head? ≠ some sep)
    (hlast : l.getLast? ≠ some sep) (hapart : Apart sep l) : ∃ runs, Runs sep l runs := by
  induction l using List.twoStepInduction with
  | nil => exact absurd rfl hl
  | singleton a => exact ⟨[[a]], Runs.single (fun ha => hfirst (congrArg some ha))⟩
  | cons_cons a b l ihtail ih =>
    have ha : a ≠ sep := fun ha => hfirst (congrArg some ha)
    unfold Apart at hapart
    rw [List.isChain_cons_cons] at hapart
    by_cases hb : b = sep
    · subst hb
      -- the separator is followed by the first character of the next part
      have htail : l ≠ [] := by
        rintro rfl
        exact hlast rfl
      obtain ⟨c, rest, rfl⟩ := List.exists_cons_of_ne_nil htail
      rw [List.isChain_cons_cons] at hapart
      obtain ⟨runs, hruns⟩ := ihtail htail
        (fun hc => hapart.2.1 ⟨rfl, Option.some.inj hc⟩) hlast hapart.2.2
      exact ⟨[a] :: runs, hruns.part ha (hruns.ne_nil htail)⟩
    · obtain ⟨runs, hruns⟩ := ih b (List.cons_ne_nil _ _)
        (fun h => hb (Option.some.inj h)) hlast hapart.2
      obtain ⟨run, runs, rfl⟩ := List.exists_cons_of_ne_nil (hruns.ne_nil (List.cons_ne_nil _ _))
      exact ⟨(a :: run) :: runs, hruns.grown ha⟩

theorem apart_of_notMem {l : List α} (h : sep ∉ l) : Apart sep l := by
  induction l with
  | nil => exact List.isChain_nil
  | cons a l ih =>
    have hl := ih (fun hmem => h (List.mem_cons_of_mem _ hmem))
    cases l with
    | nil => exact List.isChain_singleton _
    | cons b l =>
      exact List.isChain_cons_cons.mpr ⟨fun hab => h (hab.1 ▸ List.mem_cons_self), hl⟩

theorem Runs.ends {l : List α} {runs : List (List α)} (h : Runs sep l runs) :
    l.head? ≠ some sep ∧ l.getLast? ≠ some sep ∧ Apart sep l := by
  have hjoined := h.joined
  subst hjoined
  induction runs with
  | nil => exact ⟨by simp [List.intercalate], by simp [List.intercalate], List.isChain_nil⟩
  | cons run runs ih =>
    have hne := h.nonempty run List.mem_cons_self
    have hfree := h.free run List.mem_cons_self
    have hhead : run.head? ≠ some sep := fun hs => hfree (List.mem_of_mem_head? hs)
    cases runs with
    | nil =>
      have hone : [sep].intercalate [run] = run := by simp [List.intercalate]
      rw [hone]
      exact ⟨hhead, fun hs => hfree (List.mem_of_mem_getLast? hs), apart_of_notMem hfree⟩
    | cons next runs =>
      obtain ⟨hfirst, hlast, hapart⟩ := ih ⟨rfl,
        fun r hr => h.nonempty r (List.mem_cons_of_mem _ hr),
        fun r hr => h.free r (List.mem_cons_of_mem _ hr)⟩
      have hne' : [sep].intercalate (next :: runs) ≠ [] :=
        intercalate_ne_nil (h.nonempty next (by simp)) runs
      have hend : run.getLast? ≠ some sep := fun hs => hfree (List.mem_of_mem_getLast? hs)
      rw [intercalate_cons_cons]
      refine ⟨?_, ?_, ?_⟩
      · rwa [List.head?_append_of_ne_nil _ hne]
      · rwa [List.getLast?_append_of_ne_nil _ (List.cons_ne_nil _ _),
          List.getLast?_cons_of_ne_nil hne']
      · refine List.isChain_append.mpr ⟨apart_of_notMem hfree,
          List.isChain_cons.mpr ⟨fun c hc hboth => hfirst ?_, hapart⟩,
          fun a ha _ _ hboth => hend ?_⟩
        · exact (Option.mem_def.mp hc).trans (congrArg some hboth.2)
        · exact (Option.mem_def.mp ha).trans (congrArg some hboth.1)

/-! ## Splitting -/

/-- No part of a split holds the separator. -/
theorem notMem_of_mem_splitOn [DecidableEq α] {l : List α} {part : List α}
    (h : part ∈ l.splitOn sep) : sep ∉ part := by
  induction l generalizing part with
  | nil =>
    rw [List.splitOn_nil, List.mem_singleton] at h
    subst h
    exact List.not_mem_nil
  | cons a l ih =>
    rw [List.splitOn_cons_eq_if_modifyHead] at h
    split at h
    · rcases List.mem_cons.mp h with rfl | h
      · exact List.not_mem_nil
      · exact ih h
    next ha =>
      obtain ⟨first, parts, hsplit⟩ := List.exists_cons_of_ne_nil (List.splitOn_ne_nil sep l)
      rw [hsplit] at h ih
      rcases List.mem_cons.mp h with rfl | h
      · intro hmem
        rcases List.mem_cons.mp hmem with rfl | hmem
        · exact ha (beq_self_eq_true _)
        · exact ih List.mem_cons_self hmem
      · exact ih (List.mem_cons_of_mem _ h)

end Checked
