import Mathlib.Data.List.Induction
import Mathlib.Data.List.Nodup
import Summoners.Cceroby.Search

/-! # Runs of search sessions

What a session holds is said of the batches merged since its search began: every artwork of a merged
page once, and the sources that can go on with the cursors to go on from.
-/

namespace Summoners.Cceroby
set_option autoImplicit false

open Checked

/-! ## Histories -/

/-- The page of a source that returned one. -/
def ProviderOutcome.page? : ProviderOutcome → Option ProviderPage
  | .success page => some page
  | _ => none

/-- The source can be asked again: it returned a page with a cursor. -/
def ProviderOutcome.goesOn : ProviderOutcome → Bool
  | .success page => page.nextCursor.isSome
  | _ => false

/-- The last page that a source returned. -/
def lastPage (outcomes : List ProviderOutcome) (source : SourceKind) : Option ProviderPage :=
  ((outcomes.filterMap ProviderOutcome.page?).filter (fun page => page.source = source)).getLast?

/-- A search: its query and the batches merged into it. -/
structure Search where
  query : SearchQuery
  batches : List (List ProviderOutcome)

/-- No outcome has ended the source. -/
def Search.live (search : Search) (source : SourceKind) : Bool :=
  search.query.sources.asSlice.contains source &&
    search.batches.flatten.all (fun outcome => outcome.source ≠ source || outcome.goesOn)

/-- The cursor of the last page. -/
def Search.cursor (search : Search) (source : SourceKind) : Option String :=
  (lastPage search.batches.flatten source).bind ProviderPage.nextCursor

inductive SessionCall
  | beginSearch (query : SearchQuery)
  | mergeBatch (outcomes : List ProviderOutcome)

def SearchSession.call (session : SearchSession) : SessionCall → SearchSession
  | .beginSearch query => (session.beginSearch query).1
  | .mergeBatch outcomes => (session.mergeBatch outcomes).1

def Search.call (search : Search) : SessionCall → Search
  | .beginSearch query => ⟨query, []⟩
  | .mergeBatch outcomes => { search with batches := search.batches ++ [outcomes] }

/-- At most one outcome a source, and on every page only artworks of its source. -/
structure ValidBatch (outcomes : List ProviderOutcome) : Prop where
  oneEach : (outcomes.map ProviderOutcome.source).Nodup
  own : ∀ page, ProviderOutcome.success page ∈ outcomes → ∀ a ∈ page.artworks,
    a.source = page.source

/-- The artworks of a source in a batch. -/
def pageArtworks (outcomes : List ProviderOutcome) (source : SourceKind) : List Artwork :=
  ((lastPage outcomes source).map ProviderPage.artworks).getD []

/-- What a batch appends: the round-robin order of the new artworks of each page. -/
def newArtworks (seen : List (SourceKind × String)) (outcomes : List ProviderOutcome) :
    List Artwork :=
  interleave (SourceKind.all.map (fun source => fresh seen (pageArtworks outcomes source)))

/-! ## The last page -/

theorem lastPage_snoc (outcomes : List ProviderOutcome) (outcome : ProviderOutcome)
    (source : SourceKind) :
    lastPage (outcomes ++ [outcome]) source =
      if outcome.source = source then outcome.page?.or (lastPage outcomes source)
      else lastPage outcomes source := by
  unfold lastPage
  rw [List.filterMap_append, List.filter_append]
  cases outcome with
  | success page =>
    by_cases h : page.source = source
    · simp [ProviderOutcome.page?, ProviderOutcome.source, h]
    · simp [ProviderOutcome.page?, ProviderOutcome.source, h]
  | unavailable => simp [ProviderOutcome.page?, List.filterMap_cons]
  | failed => simp [ProviderOutcome.page?, List.filterMap_cons]

theorem mem_of_lastPage {outcomes : List ProviderOutcome} {source : SourceKind}
    {page : ProviderPage} (h : lastPage outcomes source = some page) :
    ProviderOutcome.success page ∈ outcomes ∧ page.source = source := by
  have hmem := List.mem_of_getLast? h
  rw [List.mem_filter, List.mem_filterMap] at hmem
  obtain ⟨⟨outcome, houtcome, hpage⟩, hsource⟩ := hmem
  cases outcome with
  | success page' =>
    cases hpage
    exact ⟨houtcome, of_decide_eq_true hsource⟩
  | unavailable => cases hpage
  | failed => cases hpage

/-- With one outcome a source, its page is the last one. -/
theorem ValidBatch.lastPage {outcomes : List ProviderOutcome} (h : ValidBatch outcomes)
    {page : ProviderPage} (hpage : ProviderOutcome.success page ∈ outcomes) :
    lastPage outcomes page.source = some page := by
  cases hlast : Cceroby.lastPage outcomes page.source with
  | none =>
    exfalso
    unfold Cceroby.lastPage at hlast
    rw [List.getLast?_eq_none_iff, List.filter_eq_nil_iff] at hlast
    apply hlast page (List.mem_filterMap.mpr ⟨_, hpage, rfl⟩)
    exact decide_eq_true rfl
  | some other =>
    obtain ⟨hmem, hsource⟩ := mem_of_lastPage hlast
    have hsame := List.inj_on_of_nodup_map h.oneEach hmem hpage hsource
    cases hsame
    rfl

/-! ## One batch -/

/-- What the loop over the outcomes leaves of a session, and the pages it has found. -/
structure Recorded (session : SearchSession) (outcomes : List ProviderOutcome)
    (state : SearchSession × Pages) : Prop where
  query : state.1.query = session.query
  artworks : state.1.artworks = session.artworks
  seen : state.1.seen = session.seen
  active : ∀ source, state.1.activeSources source = (session.activeSources source &&
    outcomes.all (fun outcome => outcome.source ≠ source || outcome.goesOn))
  cursor : ∀ source, (state.1.cursors source).join =
    match lastPage outcomes source with
    | some page => page.nextCursor
    | none => (session.cursors source).join
  pages : ∀ source, state.2 source = (lastPage outcomes source).map ProviderPage.artworks

section
variable (state : SearchSession × Pages) (outcome : ProviderOutcome) (source : SourceKind)

theorem recordOutcome_active :
    (SearchSession.recordOutcome state outcome).1.activeSources source =
      (state.1.activeSources source && (outcome.source ≠ source || outcome.goesOn)) := by
  obtain ⟨session, pages⟩ := state
  have hoff : ∀ other, Function.update session.activeSources other false source =
      (session.activeSources source && !decide (other = source)) := by
    intro other
    by_cases h : other = source
    · simp [h]
    · simp [h, Function.update_of_ne (Ne.symm h)]
  cases outcome with
  | success page =>
    simp only [SearchSession.recordOutcome, ProviderOutcome.source, ProviderOutcome.goesOn]
    cases hcursor : page.nextCursor with
    | none => by_cases h : page.source = source <;> simp [hoff, h]
    | some cursor => simp
  | unavailable other =>
    simp only [SearchSession.recordOutcome, ProviderOutcome.source, ProviderOutcome.goesOn, hoff]
    by_cases h : other = source <;> simp [h]
  | failed other =>
    simp only [SearchSession.recordOutcome, ProviderOutcome.source, ProviderOutcome.goesOn, hoff]
    by_cases h : other = source <;> simp [h]

theorem recordOutcome_cursor :
    (SearchSession.recordOutcome state outcome).1.cursors source =
      if outcome.source = source then
        (outcome.page?.map ProviderPage.nextCursor).or (state.1.cursors source)
      else state.1.cursors source := by
  obtain ⟨session, pages⟩ := state
  cases outcome with
  | success page =>
    by_cases h : page.source = source
    · subst h
      simp [SearchSession.recordOutcome, ProviderOutcome.source, ProviderOutcome.page?]
    · simp [SearchSession.recordOutcome, ProviderOutcome.source, h,
        Function.update_of_ne (Ne.symm h)]
  | unavailable => simp [SearchSession.recordOutcome, ProviderOutcome.page?]
  | failed => simp [SearchSession.recordOutcome, ProviderOutcome.page?]

theorem recordOutcome_pages :
    (SearchSession.recordOutcome state outcome).2 source =
      if outcome.source = source then
        (outcome.page?.map ProviderPage.artworks).or (state.2 source)
      else state.2 source := by
  obtain ⟨session, pages⟩ := state
  cases outcome with
  | success page =>
    by_cases h : page.source = source
    · subst h
      simp [SearchSession.recordOutcome, ProviderOutcome.source, ProviderOutcome.page?]
    · simp [SearchSession.recordOutcome, ProviderOutcome.source, h,
        Function.update_of_ne (Ne.symm h)]
  | unavailable => simp [SearchSession.recordOutcome, ProviderOutcome.page?]
  | failed => simp [SearchSession.recordOutcome, ProviderOutcome.page?]

theorem recordOutcome_frame :
    (SearchSession.recordOutcome state outcome).1.query = state.1.query ∧
      (SearchSession.recordOutcome state outcome).1.artworks = state.1.artworks ∧
      (SearchSession.recordOutcome state outcome).1.seen = state.1.seen := by
  cases outcome <;> exact ⟨rfl, rfl, rfl⟩

end

theorem recordOutcome_recorded {session : SearchSession} {outcomes : List ProviderOutcome}
    {state : SearchSession × Pages} (h : Recorded session outcomes state)
    (outcome : ProviderOutcome) :
    Recorded session (outcomes ++ [outcome]) (SearchSession.recordOutcome state outcome) := by
  obtain ⟨hquery, hartworks, hseen⟩ := recordOutcome_frame state outcome
  refine ⟨hquery.trans h.query, hartworks.trans h.artworks, hseen.trans h.seen, fun source => ?_,
    fun source => ?_, fun source => ?_⟩
  · rw [recordOutcome_active, h.active, Bool.and_assoc, List.all_append]
    simp
  · rw [recordOutcome_cursor, lastPage_snoc]
    split
    · cases outcome.page? with
      | none => simpa using h.cursor source
      | some page => simp
    · exact h.cursor source
  · rw [recordOutcome_pages, lastPage_snoc]
    split
    · cases outcome.page? with
      | none => simpa using h.pages source
      | some page => simp
    · exact h.pages source

theorem recorded (session : SearchSession) (outcomes : List ProviderOutcome) :
    Recorded session outcomes
      (outcomes.foldl SearchSession.recordOutcome (session, fun _ => none)) := by
  induction outcomes using List.reverseRecOn with
  | nil =>
    exact ⟨rfl, rfl, rfl, fun _ => by simp, fun _ => rfl, fun _ => rfl⟩
  | append_singleton outcomes outcome ih =>
    rw [List.foldl_append]
    exact recordOutcome_recorded ih outcome

/-- What merging a batch makes of a session. -/
structure Merged (session : SearchSession) (outcomes : List ProviderOutcome)
    (next : SearchSession) (appended : List Artwork) : Prop where
  query : next.query = session.query
  artworks : next.artworks = session.artworks ++ appended
  interleaved : appended = newArtworks session.seen outcomes
  seen : ∀ k, k ∈ next.seen ↔ k ∈ session.seen ∨ k ∈ appended.map Artwork.key
  active : ∀ source, next.activeSources source = (session.activeSources source &&
    outcomes.all (fun outcome => outcome.source ≠ source || outcome.goesOn))
  cursor : ∀ source, (next.cursors source).join =
    match lastPage outcomes source with
    | some page => page.nextCursor
    | none => (session.cursors source).join

theorem mergeBatch_merged (session : SearchSession) {outcomes : List ProviderOutcome}
    (hvalid : ValidBatch outcomes) :
    Merged session outcomes (session.mergeBatch outcomes).1 (session.mergeBatch outcomes).2 := by
  have h := recorded session outcomes
  unfold SearchSession.mergeBatch
  generalize outcomes.foldl SearchSession.recordOutcome (session, fun _ => none) = state at h
  obtain ⟨current, pages⟩ := state
  have hpages : ∀ source, pages source = (lastPage outcomes source).map ProviderPage.artworks :=
    h.pages
  have hcurrent : current.seen = session.seen := h.seen
  have hown : Own pages := by
    intro source artworks hpage a ha
    rw [hpages] at hpage
    obtain ⟨page, hlast, rfl⟩ := Option.map_eq_some_iff.mp hpage
    obtain ⟨hmem, hsource⟩ := mem_of_lastPage hlast
    rw [hvalid.own page hmem a ha, hsource]
  obtain ⟨hmerged, hseen⟩ := mergeLoop_merged hown ⟨fun _ => 0, session.seen, []⟩
  have hrest : SourceKind.all.map (rest pages ⟨fun _ => 0, session.seen, []⟩) =
      SourceKind.all.map (fun source => fresh session.seen (pageArtworks outcomes source)) := by
    apply List.map_congr_left
    intro source _
    unfold rest pageArtworks
    rw [hpages]
    rfl
  rw [hrest] at hmerged hseen
  rw [List.nil_append] at hmerged
  refine ⟨h.query, ?_, ?_, fun k => ?_, h.active, h.cursor⟩
  · show current.artworks ++ _ = _
    rw [show current.artworks = session.artworks from h.artworks]
  · show (mergeLoop pages ⟨fun _ => 0, current.seen, []⟩).merged = _
    rw [hcurrent]
    exact hmerged
  · show k ∈ (mergeLoop pages ⟨fun _ => 0, current.seen, []⟩).seen ↔
      k ∈ session.seen ∨ k ∈ (mergeLoop pages ⟨fun _ => 0, current.seen, []⟩).merged.map _
    rw [hcurrent, hmerged]
    exact hseen k

/-! ### Keys -/

theorem mem_fresh {seen : List (SourceKind × String)} {artworks : List Artwork} {a : Artwork}
    (h : a ∈ fresh seen artworks) : a ∈ artworks ∧ a.key ∉ seen := by
  induction artworks generalizing seen with
  | nil => cases h
  | cons b artworks ih =>
    unfold fresh at h
    split at h
    · exact ⟨List.mem_cons_of_mem _ (ih h).1, (ih h).2⟩
    next hseen =>
      rcases List.mem_cons.mp h with rfl | h
      · rw [List.contains_iff_mem] at hseen
        exact ⟨List.mem_cons_self, hseen⟩
      · obtain ⟨hmem, hkey⟩ := ih h
        exact ⟨List.mem_cons_of_mem _ hmem, fun hk => hkey (List.mem_cons_of_mem _ hk)⟩

theorem nodup_fresh (seen : List (SourceKind × String)) (artworks : List Artwork) :
    ((fresh seen artworks).map Artwork.key).Nodup := by
  induction artworks generalizing seen with
  | nil => exact List.nodup_nil
  | cons a artworks ih =>
    unfold fresh
    split
    · exact ih seen
    · rw [List.map_cons, List.nodup_cons]
      refine ⟨fun hmem => ?_, ih _⟩
      obtain ⟨b, hb, hkey⟩ := List.mem_map.mp hmem
      exact (mem_fresh hb).2 (hkey ▸ List.mem_cons_self)

/-- No key of a page is lost. -/
theorem key_mem_fresh (seen : List (SourceKind × String)) {artworks : List Artwork} {a : Artwork}
    (h : a ∈ artworks) : a.key ∈ seen ∨ a.key ∈ (fresh seen artworks).map Artwork.key := by
  induction artworks generalizing seen with
  | nil => cases h
  | cons b artworks ih =>
    unfold fresh
    split
    next hseen =>
      rw [List.contains_iff_mem] at hseen
      rcases List.mem_cons.mp h with rfl | h
      · exact .inl hseen
      · exact ih _ h
    · rw [List.map_cons, List.mem_cons]
      rcases List.mem_cons.mp h with rfl | h
      · exact .inr (.inl rfl)
      · rcases ih _ h with hk | hk
        · rcases List.mem_cons.mp hk with hk | hk
          · exact .inr (.inl hk)
          · exact .inl hk
        · exact .inr (.inr hk)

theorem source_of_fresh {seen : List (SourceKind × String)} {outcomes : List ProviderOutcome}
    (hvalid : ValidBatch outcomes) {source : SourceKind} {a : Artwork}
    (h : a ∈ fresh seen (pageArtworks outcomes source)) : a.source = source := by
  have hmem := (mem_fresh h).1
  unfold pageArtworks at hmem
  cases hlast : lastPage outcomes source with
  | none =>
    rw [hlast] at hmem
    cases hmem
  | some page =>
    rw [hlast] at hmem
    obtain ⟨hpage, hsource⟩ := mem_of_lastPage hlast
    rw [hvalid.own page hpage a hmem, hsource]

/-- What a batch adds has keys of its own: unseen ones, each once. -/
theorem newArtworks_keys (seen : List (SourceKind × String)) {outcomes : List ProviderOutcome}
    (hvalid : ValidBatch outcomes) :
    ((newArtworks seen outcomes).map Artwork.key).Nodup ∧
      ∀ a ∈ newArtworks seen outcomes, a.key ∉ seen := by
  have hperm := (interleave_perm (SourceKind.all.map (fun source =>
    fresh seen (pageArtworks outcomes source)))).map Artwork.key
  refine ⟨hperm.nodup_iff.mpr ?_, fun a ha => ?_⟩
  · rw [List.map_flatten, List.map_map, List.nodup_flatten]
    refine ⟨?_, ?_⟩
    · rw [List.forall_mem_map]
      intro source _
      exact nodup_fresh _ _
    · rw [List.pairwise_map]
      refine SourceKind.nodup_all.imp (fun {s t} hne k hs ht => hne ?_)
      obtain ⟨a, ha, rfl⟩ := List.mem_map.mp hs
      obtain ⟨b, hb, hkey⟩ := List.mem_map.mp ht
      have hsource : b.source = a.source := congrArg Prod.fst hkey
      rw [← source_of_fresh hvalid ha, ← source_of_fresh hvalid hb, hsource]
  · obtain ⟨l, hl, ha⟩ := mem_interleave.mp ha
    obtain ⟨source, -, rfl⟩ := List.mem_map.mp hl
    exact (mem_fresh ha).2

/-! ## Runs -/

/-- A session as its search describes it. -/
structure Reflects (session : SearchSession) (search : Search) : Prop where
  query : session.query = search.query
  seen : ∀ k, k ∈ session.seen ↔ k ∈ session.artworks.map Artwork.key
  nodup : (session.artworks.map Artwork.key).Nodup
  complete : ∀ batch ∈ search.batches, ∀ page, ProviderOutcome.success page ∈ batch →
    ∀ a ∈ page.artworks, a.key ∈ session.artworks.map Artwork.key
  active : ∀ source, session.activeSources source = search.live source
  cursor : ∀ source, (session.cursors source).join = search.cursor source

theorem reflects_new (query : SearchQuery) : Reflects (SearchSession.new query) ⟨query, []⟩ where
  query := rfl
  seen := by simp [SearchSession.new]
  nodup := List.nodup_nil
  complete := by simp
  active := by simp [SearchSession.new, Search.live]
  cursor := by
    intro source
    unfold SearchSession.new
    simp only
    split <;> rfl

theorem lastPage_append (outcomes later : List ProviderOutcome) (source : SourceKind) :
    lastPage (outcomes ++ later) source =
      (lastPage later source).or (lastPage outcomes source) := by
  unfold lastPage
  rw [List.filterMap_append, List.filter_append, List.getLast?_append]

theorem Reflects.merge {session : SearchSession} {search : Search} (h : Reflects session search)
    {outcomes : List ProviderOutcome} (hvalid : ValidBatch outcomes) :
    Reflects (session.mergeBatch outcomes).1
      { search with batches := search.batches ++ [outcomes] } := by
  have hmerged := mergeBatch_merged session hvalid
  obtain ⟨hnodup, hnew⟩ := newArtworks_keys session.seen hvalid
  rw [← hmerged.interleaved] at hnodup hnew
  have hkeys : (session.mergeBatch outcomes).1.artworks.map Artwork.key =
      session.artworks.map Artwork.key ++ (session.mergeBatch outcomes).2.map Artwork.key := by
    rw [hmerged.artworks, List.map_append]
  have hflat : (search.batches ++ [outcomes]).flatten = search.batches.flatten ++ outcomes := by
    simp
  refine ⟨hmerged.query.trans h.query, fun k => ?_, ?_, fun batch hbatch page hpage a ha => ?_,
    fun source => ?_, fun source => ?_⟩
  · rw [hmerged.seen, h.seen, hkeys, List.mem_append]
  · rw [hkeys, List.nodup_append']
    refine ⟨h.nodup, hnodup, fun k hk hk' => ?_⟩
    obtain ⟨a, ha, rfl⟩ := List.mem_map.mp hk'
    exact hnew a ha ((h.seen _).mpr hk)
  · rw [hkeys, List.mem_append]
    rcases List.mem_append.mp hbatch with hbatch | hbatch
    · exact .inl (h.complete batch hbatch page hpage a ha)
    · rw [List.mem_singleton] at hbatch
      subst hbatch
      have hpages : pageArtworks batch page.source = page.artworks := by
        unfold pageArtworks
        rw [hvalid.lastPage hpage]
        rfl
      rcases key_mem_fresh session.seen ha with hk | hk
      · exact .inl ((h.seen _).mp hk)
      · obtain ⟨b, hb, hkey⟩ := List.mem_map.mp hk
        refine .inr (List.mem_map.mpr ⟨b, ?_, hkey⟩)
        rw [hmerged.interleaved]
        rw [← hpages] at hb
        exact mem_interleave.mpr ⟨_, List.mem_map.mpr ⟨_, SourceKind.mem_all _, rfl⟩, hb⟩
  · rw [hmerged.active, h.active]
    unfold Search.live
    rw [hflat, List.all_append, Bool.and_assoc]
  · rw [hmerged.cursor, h.cursor]
    unfold Search.cursor
    rw [hflat, lastPage_append]
    cases lastPage outcomes source <;> rfl

/-- **Runs.** Any calls leave a session as the current search describes it. -/
theorem reflects_calls {session : SearchSession} {search : Search} (h : Reflects session search)
    (calls : List SessionCall)
    (hvalid : ∀ outcomes, SessionCall.mergeBatch outcomes ∈ calls → ValidBatch outcomes) :
    Reflects (calls.foldl SearchSession.call session) (calls.foldl Search.call search) := by
  induction calls generalizing session search with
  | nil => exact h
  | cons call calls ih =>
    rw [List.foldl_cons, List.foldl_cons]
    apply ih
    · cases call with
      | beginSearch query => exact reflects_new query
      | mergeBatch outcomes => exact h.merge (hvalid outcomes List.mem_cons_self)
    · exact fun outcomes houtcomes => hvalid outcomes (List.mem_cons_of_mem _ houtcomes)

end Summoners.Cceroby
