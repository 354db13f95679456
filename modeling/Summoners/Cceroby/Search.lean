import Mathlib.Algebra.Order.BigOperators.Group.List
import Mathlib.Algebra.Order.Group.Nat
import Mathlib.Algebra.Ring.Nat
import Mathlib.Logic.Function.Basic
import Summoners.Cceroby.Artwork
import Summoners.Checked.Interleave

/-! # Search sessions

`SearchSession` and `round_robin_unique` of `core.rs`. The sets and maps over the five sources are
functions of the source; `seen`, a set of keys, is the list of them.
-/

namespace Summoners.Cceroby
set_option autoImplicit false

open Checked

/-! ## Queries -/

inductive SearchInputError
  | emptyQuery
  | emptySources
  deriving DecidableEq

/-- A canonical search phrase, which is not empty. -/
structure QueryText where
  asStr : String
  nonempty : asStr ≠ ""
  deriving DecidableEq

structure Culture where
  asStr : String
  nonempty : asStr ≠ ""
  deriving DecidableEq

/-- Some sources, in the order of `ALL`. -/
structure SourceSet where
  asSlice : List SourceKind
  ordered : asSlice = SourceKind.all.filter (fun source => asSlice.contains source)
  nonempty : asSlice ≠ []
  deriving DecidableEq

def SourceSet.parse (raw : List SourceKind) : Except SearchInputError SourceSet :=
  let sources := SourceKind.all.filter (fun source => raw.contains source)
  if h : sources = [] then .error .emptySources
  else
    .ok
      { asSlice := sources
        ordered := List.filter_congr (fun source hs => by simp [sources, hs])
        nonempty := h }

structure SearchQuery where
  query : QueryText
  sources : SourceSet
  culture : Option Culture
  deriving DecidableEq

/-! ## Merging pages -/

/-- The artworks of a batch, for the sources that returned a page. -/
abbrev Pages := SourceKind → Option (List Artwork)

/-- The state of `round_robin_unique`. -/
structure Merge where
  positions : SourceKind → ℕ
  seen : List (SourceKind × String)
  merged : List Artwork

/-- The `while` loop: the position behind the next unseen artwork, or the end of the page. -/
def takeNext (artworks : List Artwork) (seen : List (SourceKind × String)) (position : ℕ) :
    ℕ × Option Artwork :=
  if h : position < artworks.length then
    if seen.contains artworks[position].key then takeNext artworks seen (position + 1)
    else (position + 1, some artworks[position])
  else (position, none)
termination_by artworks.length - position

/-- One pass of the `for` loop: the merge, and whether the round has added an artwork. -/
def mergeSource (pages : Pages) (state : Merge × Bool) (source : SourceKind) : Merge × Bool :=
  match pages source with
  | none => state
  | some artworks =>
      let (merge, added) := state
      match takeNext artworks merge.seen (merge.positions source) with
      | (position, none) =>
          ({ merge with positions := Function.update merge.positions source position }, added)
      | (position, some artwork) =>
          ({ positions := Function.update merge.positions source position
             seen := artwork.key :: merge.seen
             merged := merge.merged ++ [artwork] }, true)

def mergeRound (pages : Pages) (merge : Merge) : Merge × Bool :=
  SourceKind.all.foldl (mergeSource pages) (merge, false)

/-! ### What one pass does -/

/-- The artworks of a page whose key has not been seen, each key once. -/
def fresh (seen : List (SourceKind × String)) : List Artwork → List Artwork
  | [] => []
  | artwork :: rest =>
      if seen.contains artwork.key then fresh seen rest
      else artwork :: fresh (artwork.key :: seen) rest

theorem fresh_congr {seen seen' : List (SourceKind × String)} {artworks : List Artwork}
    (h : ∀ a ∈ artworks, a.key ∈ seen ↔ a.key ∈ seen') :
    fresh seen artworks = fresh seen' artworks := by
  induction artworks generalizing seen seen' with
  | nil => rfl
  | cons a artworks ih =>
    obtain ⟨ha, hrest⟩ := List.forall_mem_cons.mp h
    have hcontains : seen.contains a.key = seen'.contains a.key := by
      rw [Bool.eq_iff_iff, List.contains_iff_mem, List.contains_iff_mem, ha]
    have hcons : fresh (a.key :: seen) artworks = fresh (a.key :: seen') artworks :=
      ih (fun b hb => by rw [List.mem_cons, List.mem_cons, hrest b hb])
    unfold fresh
    rw [hcontains, ih hrest, hcons]

theorem takeNext_spec (artworks : List Artwork) (seen : List (SourceKind × String))
    (position : ℕ) :
    match takeNext artworks seen position with
    | (next, none) => position ≤ next ∧ fresh seen (artworks.drop position) = [] ∧
        artworks.drop next = []
    | (next, some a) => position < next ∧ next ≤ artworks.length ∧ a ∈ artworks ∧
        a.key ∉ seen ∧
        fresh seen (artworks.drop position) = a :: fresh (a.key :: seen) (artworks.drop next) := by
  fun_induction takeNext artworks seen position with
  | case1 position h hseen ih =>
    have hdrop : fresh seen (artworks.drop position) = fresh seen (artworks.drop (position + 1)) := by
      rw [List.drop_eq_getElem_cons h, fresh, if_pos hseen]
    rw [hdrop]
    split at ih
    · exact ⟨by omega, ih.2⟩
    · exact ⟨by omega, ih.2⟩
  | case2 position h hseen =>
    refine ⟨Nat.lt_succ_self _, h, List.getElem_mem h, ?_, ?_⟩
    · rwa [List.contains_iff_mem] at hseen
    · rw [List.drop_eq_getElem_cons h, fresh, if_neg hseen]
  | case3 position h =>
    have hnil : artworks.drop position = [] := List.drop_eq_nil_of_le (Nat.not_lt.mp h)
    exact ⟨Nat.le_refl _, by rw [hnil]; rfl, hnil⟩

section
variable {pages : Pages}

/-- How much of a page lies behind the position of its source. -/
def left (pages : Pages) (merge : Merge) (source : SourceKind) : ℕ :=
  ((pages source).getD []).length - merge.positions source

def remaining (pages : Pages) (merge : Merge) : ℕ := (SourceKind.all.map (left pages merge)).sum

variable (pages) in
/-- A pass takes nothing back, and one that adds an artwork moves on. -/
theorem mergeSource_left (merge : Merge) (added : Bool) (source : SourceKind) :
    (∀ s, left pages (mergeSource pages (merge, added) source).1 s ≤ left pages merge s) ∧
      ((mergeSource pages (merge, added) source).2 = true → added = true ∨
        left pages (mergeSource pages (merge, added) source).1 source <
          left pages merge source) := by
  unfold mergeSource
  split
  · exact ⟨fun _ => Nat.le_refl _, .inl⟩
  next artworks hpage =>
    have hnext := takeNext_spec artworks merge.seen (merge.positions source)
    simp only
    split
    next position htake =>
      rw [htake] at hnext
      refine ⟨fun s => ?_, .inl⟩
      unfold left
      by_cases hs : s = source
      · subst hs
        simp only [Function.update_self]
        omega
      · simp [Function.update_of_ne hs]
    next position artwork htake =>
      rw [htake] at hnext
      obtain ⟨hlt, hle, -⟩ := hnext
      have hself : left pages
          { positions := Function.update merge.positions source position
            seen := artwork.key :: merge.seen
            merged := merge.merged ++ [artwork] } source < left pages merge source := by
        unfold left
        simp only [Function.update_self, hpage, Option.getD_some]
        omega
      refine ⟨fun s => ?_, fun _ => .inr hself⟩
      by_cases hs : s = source
      · subst hs
        exact Nat.le_of_lt hself
      · simp [left, Function.update_of_ne hs]

variable (pages) in
theorem mergeSources_left (sources : List SourceKind) (state : Merge × Bool) :
    (∀ s, left pages (sources.foldl (mergeSource pages) state).1 s ≤ left pages state.1 s) ∧
      ((sources.foldl (mergeSource pages) state).2 = true → state.2 = true ∨
        ∃ s, left pages (sources.foldl (mergeSource pages) state).1 s < left pages state.1 s) := by
  induction sources generalizing state with
  | nil => exact ⟨fun _ => Nat.le_refl _, .inl⟩
  | cons source sources ih =>
    obtain ⟨merge, added⟩ := state
    obtain ⟨hle, hadded⟩ := mergeSource_left pages merge added source
    obtain ⟨hle', hadded'⟩ := ih (mergeSource pages (merge, added) source)
    rw [List.foldl_cons]
    refine ⟨fun s => Nat.le_trans (hle' s) (hle s), fun h => ?_⟩
    rcases hadded' h with h | ⟨s, hs⟩
    · rcases hadded h with h | hs
      · exact .inl h
      · exact .inr ⟨source, Nat.lt_of_le_of_lt (hle' source) hs⟩
    · exact .inr ⟨s, Nat.lt_of_lt_of_le hs (hle s)⟩

theorem mergeRound_remaining {merge : Merge} (h : (mergeRound pages merge).2 = true) :
    remaining pages (mergeRound pages merge).1 < remaining pages merge := by
  obtain ⟨hle, hadded⟩ := mergeSources_left pages SourceKind.all (merge, false)
  obtain ⟨s, hs⟩ := (hadded h).resolve_left Bool.false_ne_true
  exact List.sum_lt_sum _ _ (fun source _ => hle source) ⟨s, SourceKind.mem_all s, hs⟩

end

/-- The `loop`: rounds until one adds nothing. -/
def mergeLoop (pages : Pages) (merge : Merge) : Merge :=
  if _ : (mergeRound pages merge).2 = true then mergeLoop pages (mergeRound pages merge).1
  else (mergeRound pages merge).1
termination_by remaining pages merge
decreasing_by exact mergeRound_remaining ‹_›

def roundRobinUnique (pages : Pages) (seen : List (SourceKind × String)) :
    List (SourceKind × String) × List Artwork :=
  let merge := mergeLoop pages ⟨fun _ => 0, seen, []⟩
  (merge.seen, merge.merged)

/-! ### What a batch adds -/

section
variable {pages : Pages}

/-- Every artwork on a page is of the page's source. -/
def Own (pages : Pages) : Prop :=
  ∀ source artworks, pages source = some artworks → ∀ a ∈ artworks, a.source = source

/-- What a source still has to give. -/
def rest (pages : Pages) (merge : Merge) (source : SourceKind) : List Artwork :=
  fresh merge.seen (((pages source).getD []).drop (merge.positions source))

theorem rest_frame {merge : Merge} {source other : SourceKind} (hown : Own pages)
    (hother : other ≠ source) {artwork : Artwork} (hartwork : artwork.source = source)
    (position : ℕ) :
    rest pages
      { positions := Function.update merge.positions source position
        seen := artwork.key :: merge.seen
        merged := merge.merged ++ [artwork] } other = rest pages merge other := by
  unfold rest
  simp only [Function.update_of_ne hother]
  apply fresh_congr
  intro a ha
  have hsource : a.source = other := by
    cases hpage : pages other with
    | none =>
      rw [hpage] at ha
      simp at ha
    | some artworks =>
      rw [hpage] at ha
      exact hown other artworks hpage a (List.mem_of_mem_drop ha)
  rw [List.mem_cons, or_iff_right]
  intro hkey
  have hsame := congrArg Prod.fst hkey
  exact hother (hsource.symm.trans (hsame.trans hartwork))

/-- What a pass over some sources leaves: of each its first artwork is taken. -/
structure Taken (pages : Pages) (sources : List SourceKind) (merge next : Merge)
    (artworks : List Artwork) : Prop where
  merged : next.merged = merge.merged ++ artworks
  seen : ∀ k, k ∈ next.seen ↔ k ∈ merge.seen ∨ k ∈ artworks.map Artwork.key
  taken : ∀ source ∈ sources, rest pages next source = (rest pages merge source).tail
  kept : ∀ source, source ∉ sources → rest pages next source = rest pages merge source

theorem mergeSource_taken (hown : Own pages) (merge : Merge) (added : Bool) (source : SourceKind) :
    Taken pages [source] merge (mergeSource pages (merge, added) source).1
        (rest pages merge source).head?.toList ∧
      (mergeSource pages (merge, added) source).2 =
        (added || (rest pages merge source).head?.isSome) := by
  unfold mergeSource
  split
  next hpage =>
    have hrest : rest pages merge source = [] := by
      unfold rest
      rw [hpage, Option.getD_none, List.drop_nil]
      rfl
    rw [hrest]
    refine ⟨⟨by simp, by simp, ?_, fun _ _ => rfl⟩, by simp⟩
    rw [List.forall_mem_singleton, hrest]
    rfl
  next artworks hpage =>
    have hnext := takeNext_spec artworks merge.seen (merge.positions source)
    have hdrop : rest pages merge source =
        fresh merge.seen (artworks.drop (merge.positions source)) := by
      unfold rest
      rw [hpage, Option.getD_some]
    simp only
    split
    next position htake =>
      rw [htake] at hnext
      obtain ⟨-, hfresh, hend⟩ := hnext
      rw [hdrop, hfresh]
      refine ⟨⟨by simp, by simp, ?_, fun other hother => ?_⟩, by simp⟩
      · rw [List.forall_mem_singleton, hdrop, hfresh]
        simp only [rest, hpage, Option.getD_some, Function.update_self, hend]
        rfl
      · have hne : other ≠ source := by simpa using hother
        simp only [rest, Function.update_of_ne hne]
    next position artwork htake =>
      rw [htake] at hnext
      obtain ⟨-, -, hmem, -, hfresh⟩ := hnext
      rw [hdrop, hfresh]
      refine ⟨⟨by simp, fun k => by simp [or_comm], ?_, fun other hother => ?_⟩, by simp⟩
      · rw [List.forall_mem_singleton, hdrop, hfresh]
        simp only [rest, hpage, Option.getD_some, Function.update_self]
        rfl
      · exact rest_frame hown (by simpa using hother) (hown source artworks hpage artwork hmem)
          position

theorem mergeSources_taken (hown : Own pages) (sources : List SourceKind) (hnodup : sources.Nodup)
    (merge : Merge) (added : Bool) :
    Taken pages sources merge (sources.foldl (mergeSource pages) (merge, added)).1
        (sources.filterMap (fun source => (rest pages merge source).head?)) ∧
      (sources.foldl (mergeSource pages) (merge, added)).2 =
        (added || sources.any (fun source => (rest pages merge source).head?.isSome)) := by
  induction sources generalizing merge added with
  | nil => exact ⟨⟨by simp, by simp, by simp, fun _ _ => rfl⟩, by simp⟩
  | cons source sources ih =>
    obtain ⟨hnotMem, hnodup⟩ := List.nodup_cons.mp hnodup
    obtain ⟨hfirst, hadded⟩ := mergeSource_taken hown merge added source
    obtain ⟨hrest, hadded'⟩ := ih hnodup (mergeSource pages (merge, added) source).1
      (mergeSource pages (merge, added) source).2
    have hsame : ∀ s ∈ sources,
        rest pages (mergeSource pages (merge, added) source).1 s = rest pages merge s := by
      intro s hs
      apply hfirst.kept
      rintro hmem
      rw [List.mem_singleton] at hmem
      exact hnotMem (hmem ▸ hs)
    have hheads : sources.filterMap (fun s =>
        (rest pages (mergeSource pages (merge, added) source).1 s).head?) =
          sources.filterMap (fun s => (rest pages merge s).head?) :=
      List.filterMap_congr (fun s hs => by rw [hsame s hs])
    have hany : sources.any (fun s =>
        (rest pages (mergeSource pages (merge, added) source).1 s).head?.isSome) =
          sources.any (fun s => (rest pages merge s).head?.isSome) := by
      rw [Bool.eq_iff_iff, List.any_eq_true, List.any_eq_true]
      exact exists_congr (fun s => and_congr_right (fun hs => by rw [hsame s hs]))
    have hcons : (source :: sources).filterMap (fun s => (rest pages merge s).head?) =
        (rest pages merge source).head?.toList ++
          sources.filterMap (fun s => (rest pages merge s).head?) := by
      simp only [List.filterMap_cons]
      cases (rest pages merge source).head? <;> rfl
    rw [List.foldl_cons, hcons]
    rw [hheads] at hrest
    refine ⟨⟨?_, fun k => ?_, ?_, fun other hother => ?_⟩, ?_⟩
    · rw [hrest.merged, hfirst.merged, List.append_assoc]
    · rw [hrest.seen, hfirst.seen, List.map_append, List.mem_append, or_assoc]
    · rw [List.forall_mem_cons]
      refine ⟨?_, fun s hs => ?_⟩
      · rw [hrest.kept source hnotMem, hfirst.taken source (List.mem_singleton_self _)]
      · rw [hrest.taken s hs, hsame s hs]
    · rw [List.mem_cons, not_or] at hother
      rw [hrest.kept other hother.2, hfirst.kept other (by simpa using hother.1)]
    · rw [hadded', hadded, hany, List.any_cons, Bool.or_assoc]

/-- **Rounds.** What the loop appends is the round-robin order of what the sources have left. -/
theorem mergeLoop_merged (hown : Own pages) (merge : Merge) :
    (mergeLoop pages merge).merged =
        merge.merged ++ interleave (SourceKind.all.map (rest pages merge)) ∧
      ∀ k, k ∈ (mergeLoop pages merge).seen ↔ k ∈ merge.seen ∨
        k ∈ (interleave (SourceKind.all.map (rest pages merge))).map Artwork.key := by
  have hheads : ∀ merge : Merge,
      SourceKind.all.filterMap (fun source => (rest pages merge source).head?) =
        (SourceKind.all.map (rest pages merge)).filterMap List.head? := by
    intro merge
    rw [List.filterMap_map]
    rfl
  fun_induction mergeLoop pages merge with
  | case1 merge h ih =>
    obtain ⟨hround, -⟩ := mergeSources_taken hown SourceKind.all SourceKind.nodup_all merge false
    have htails : SourceKind.all.map (rest pages (mergeRound pages merge).1) =
        (SourceKind.all.map (rest pages merge)).map List.tail := by
      rw [List.map_map]
      exact List.map_congr_left hround.taken
    have hmerged : (mergeRound pages merge).1.merged = _ := hround.merged
    have hseen : ∀ k, k ∈ (mergeRound pages merge).1.seen ↔ _ := hround.seen
    rw [interleave_step, ← hheads, ← htails]
    refine ⟨?_, fun k => ?_⟩
    · rw [ih.1, hmerged, List.append_assoc]
    · rw [ih.2, hseen, List.map_append, List.mem_append, or_assoc]
  | case2 merge h =>
    obtain ⟨hround, hadded⟩ :=
      mergeSources_taken hown SourceKind.all SourceKind.nodup_all merge false
    have hnone : ∀ source ∈ SourceKind.all, rest pages merge source = [] := by
      intro source hsource
      by_contra hne
      apply h
      show (SourceKind.all.foldl (mergeSource pages) (merge, false)).2 = true
      rw [hadded, Bool.false_or, List.any_eq_true]
      exact ⟨source, hsource, List.isSome_head?.mpr hne⟩
    have hnil : interleave (SourceKind.all.map (rest pages merge)) = [] := by
      apply interleave_of_nil
      rw [List.forall_mem_map]
      exact hnone
    have hno : SourceKind.all.filterMap (fun source => (rest pages merge source).head?) = [] := by
      rw [hheads, List.filterMap_eq_nil_iff, List.forall_mem_map]
      intro source hsource
      rw [hnone source hsource]
      rfl
    rw [hno] at hround
    rw [hnil]
    exact ⟨hround.merged, hround.seen⟩

end

/-! ## Sessions -/

structure ProviderCursor where
  source : SourceKind
  cursor : Option String
  deriving DecidableEq

structure SearchSession where
  query : SearchQuery
  notices : List ProviderNotice
  artworks : List Artwork
  activeSources : SourceKind → Bool
  cursors : SourceKind → Option (Option String)
  seen : List (SourceKind × String)

structure SearchView where
  query : SearchQuery
  notices : List ProviderNotice
  artworks : List Artwork
  hasMore : Bool

def addNotice (notices : List ProviderNotice) (notice : ProviderNotice) : List ProviderNotice :=
  if notices.contains notice then notices else notices ++ [notice]

namespace SearchSession

def new (query : SearchQuery) : SearchSession where
  query := query
  notices := []
  artworks := []
  activeSources := fun source => query.sources.asSlice.contains source
  cursors := fun source => if query.sources.asSlice.contains source then some none else none
  seen := []

/-- The session of the new search, and whether its query differs. -/
def beginSearch (session : SearchSession) (query : SearchQuery) : SearchSession × Bool :=
  ({ session with
      query := query
      notices := []
      artworks := []
      activeSources := fun source => query.sources.asSlice.contains source
      cursors := fun source => if query.sources.asSlice.contains source then some none else none
      seen := [] }, session.query ≠ query)

def nextBatch (session : SearchSession) : List ProviderCursor :=
  (SourceKind.all.filter session.activeSources).map (fun source =>
    ⟨source, (session.cursors source).join⟩)

/-- The arms of the loop over the outcomes. -/
def recordOutcome (state : SearchSession × Pages) (outcome : ProviderOutcome) :
    SearchSession × Pages :=
  let (session, pages) := state
  match outcome with
  | .success page =>
      ({ session with
          cursors := Function.update session.cursors page.source (some page.nextCursor)
          activeSources :=
            if page.nextCursor.isNone then Function.update session.activeSources page.source false
            else session.activeSources },
        Function.update pages page.source (some page.artworks))
  | .unavailable source =>
      ({ session with
          activeSources := Function.update session.activeSources source false
          notices := addNotice session.notices (.unavailable source) }, pages)
  | .failed source =>
      ({ session with
          activeSources := Function.update session.activeSources source false
          notices := addNotice session.notices (.failed source) }, pages)

/-- The session with a batch merged, and the new cards. -/
def mergeBatch (session : SearchSession) (outcomes : List ProviderOutcome) :
    SearchSession × List Artwork :=
  let (session, pages) := outcomes.foldl recordOutcome (session, fun _ => none)
  let (seen, appended) := roundRobinUnique pages session.seen
  ({ session with seen := seen, artworks := session.artworks ++ appended }, appended)

def view (session : SearchSession) : SearchView where
  query := session.query
  notices := session.notices
  artworks := session.artworks
  hasMore := SourceKind.all.any session.activeSources

end SearchSession

end Summoners.Cceroby
