import Mathlib.Logic.Relation
import Summoners.Cceroby.SearchRun

/-! # The search gate

The handlers `index` and `more` of `server.rs`, as the steps they take between their locks. Any number
of requests run at once and their steps interleave in any order; a request whose client goes away is
dropped at any of them, and gives back the gate if it has it.
-/

namespace Summoners.Cceroby
set_option autoImplicit false

open Checked

namespace Server

/-- `index` with a query, or `more`. -/
inductive Handler
  | index (query : SearchQuery)
  | more

/-- How far a request has come. With the providers' answer under way it holds the query and the
cursors it asked with, and, for the proofs only, the calls the session had seen by then. -/
inductive Phase
  | idle
  | waiting (handler : Handler)
  | gated (handler : Handler)
  | begun (query : SearchQuery)
  | requested (query : SearchQuery) (cursors : List ProviderCursor) (calls : List SessionCall)
  | answered
  | done

/-- The request is between the lock of the gate and the end of its guard. -/
def Phase.holdsGate : Phase → Bool
  | .gated _ | .begun _ | .requested .. | .answered => true
  | _ => false

structure World where
  session : SearchSession
  gate : Option ℕ
  phase : ℕ → Phase
  calls : List SessionCall

def World.start (query : SearchQuery) : World where
  session := SearchSession.new query
  gate := none
  phase := fun _ => .idle
  calls := []

/-- One step of a request. -/
def World.at (world : World) (id : ℕ) (phase : Phase) : World :=
  { world with phase := Function.update world.phase id phase }

def World.call (world : World) (call : SessionCall) : World :=
  { world with session := world.session.call call, calls := world.calls ++ [call] }

inductive Step : World → World → Prop
  | arrive {world : World} {id : ℕ} (handler : Handler) (h : world.phase id = .idle) :
      Step world (world.at id (.waiting handler))
  | lock {world : World} {id : ℕ} {handler : Handler} (h : world.phase id = .waiting handler)
      (hgate : world.gate = none) :
      Step world { world.at id (.gated handler) with gate := some id }
  | begin {world : World} {id : ℕ} {query : SearchQuery}
      (h : world.phase id = .gated (.index query)) :
      Step world ((world.call (.beginSearch query)).at id (.begun query))
  | request {world : World} {id : ℕ} {query : SearchQuery} (h : world.phase id = .begun query) :
      Step world (world.at id (.requested query world.session.nextBatch world.calls))
  | requestMore {world : World} {id : ℕ} (h : world.phase id = .gated .more)
      (hmore : world.session.nextBatch ≠ []) :
      Step world
        (world.at id (.requested world.session.view.query world.session.nextBatch world.calls))
  | noMore {world : World} {id : ℕ} (h : world.phase id = .gated .more)
      (hmore : world.session.nextBatch = []) :
      Step world (world.at id .answered)
  | merge {world : World} {id : ℕ} {query : SearchQuery} {cursors : List ProviderCursor}
      {calls : List SessionCall} (h : world.phase id = .requested query cursors calls)
      (outcomes : List ProviderOutcome) :
      Step world ((world.call (.mergeBatch outcomes)).at id .answered)
  | release {world : World} {id : ℕ} (h : world.phase id = .answered) :
      Step world { world.at id .done with gate := none }
  | drop {world : World} {id : ℕ} :
      Step world
        { world.at id .done with
          gate := if (world.phase id).holdsGate then none else world.gate }

/-! ## What the gate keeps -/

/-- What a request goes by is what the session holds. -/
def Phase.Agrees (session : SearchSession) (calls : List SessionCall) : Phase → Prop
  | .begun query => session.query = query
  | .requested query cursors requestedAt =>
      requestedAt = calls ∧ session.query = query ∧ session.nextBatch = cursors
  | _ => True

/-- The session is the run of its calls, one request at most is past the gate, and it agrees with the
session. -/
structure Gated (start : SearchQuery) (world : World) : Prop where
  session : world.session = world.calls.foldl SearchSession.call (SearchSession.new start)
  gate : ∀ id, (world.phase id).holdsGate = true → world.gate = some id
  agrees : ∀ id, (world.phase id).Agrees world.session world.calls

variable {start : SearchQuery} {world : World}

theorem gated_start (start : SearchQuery) : Gated start (World.start start) where
  session := rfl
  gate := by
    intro id h
    cases h
  agrees := fun _ => trivial

/-- In front of the gate a request goes by nothing yet. -/
theorem Phase.agrees_of_not_holdsGate {phase : Phase} (h : phase.holdsGate ≠ true)
    (session : SearchSession) (calls : List SessionCall) : phase.Agrees session calls := by
  cases phase with
  | begun => exact absurd rfl h
  | requested => exact absurd rfl h
  | _ => trivial

theorem Gated.only (h : Gated start world) {id other : ℕ}
    (hid : (world.phase id).holdsGate = true) (hne : other ≠ id) :
    (world.phase other).holdsGate ≠ true := by
  intro hother
  have hsome := (h.gate other hother).symm.trans (h.gate id hid)
  exact hne (Option.some.inj hsome)

/-- **One request moves.** The others stay as they are, so they agree still if the session has not
changed under one that is past the gate. -/
theorem Gated.move (h : Gated start world) {id : ℕ} {phase : Phase} {gate : Option ℕ}
    {session : SearchSession} {calls : List SessionCall}
    (hsession : session = calls.foldl SearchSession.call (SearchSession.new start))
    (hagrees : phase.Agrees session calls) (hgate : phase.holdsGate = true → gate = some id)
    (hothers : ∀ other, other ≠ id → (world.phase other).holdsGate = true →
      gate = some other ∧ session = world.session ∧ calls = world.calls) :
    Gated start
      { session := session
        gate := gate
        phase := Function.update world.phase id phase
        calls := calls } where
  session := hsession
  gate := by
    intro other hother
    by_cases hne : other = id
    · subst hne
      simp only [Function.update_self] at hother
      exact hgate hother
    · simp only [Function.update_of_ne hne] at hother
      exact (hothers other hne hother).1
  agrees := by
    intro other
    by_cases hne : other = id
    · subst hne
      simpa only [Function.update_self] using hagrees
    · simp only [Function.update_of_ne hne]
      by_cases hholds : (world.phase other).holdsGate = true
      · obtain ⟨-, rfl, rfl⟩ := hothers other hne hholds
        exact h.agrees other
      · exact Phase.agrees_of_not_holdsGate hholds _ _

theorem Gated.call (h : Gated start world) (call : SessionCall) :
    (world.call call).session =
      (world.call call).calls.foldl SearchSession.call (SearchSession.new start) := by
  show world.session.call call = (world.calls ++ [call]).foldl _ _
  rw [List.foldl_append, ← h.session]
  rfl

theorem Gated.step (h : Gated start world) {next : World} (hstep : Step world next) :
    Gated start next := by
  cases hstep with
  | @arrive id handler hphase =>
    exact h.move h.session trivial (fun hholds => by cases hholds)
      (fun other _ hother => ⟨h.gate other hother, rfl, rfl⟩)
  | @lock id handler hphase hgate =>
    refine h.move h.session trivial (fun _ => rfl) (fun other _ hother => ?_)
    rw [h.gate other hother] at hgate
    cases hgate
  | @begin id query hphase =>
    have hholds : (world.phase id).holdsGate = true := by rw [hphase]; rfl
    exact h.move (h.call _) rfl (fun _ => h.gate id hholds)
      (fun other hne hother => absurd hother (h.only hholds hne))
  | @request id query hphase =>
    have hholds : (world.phase id).holdsGate = true := by rw [hphase]; rfl
    have hagrees := h.agrees id
    rw [hphase] at hagrees
    exact h.move h.session ⟨rfl, hagrees, rfl⟩ (fun _ => h.gate id hholds)
      (fun other hne hother => absurd hother (h.only hholds hne))
  | @requestMore id hphase hmore =>
    have hholds : (world.phase id).holdsGate = true := by rw [hphase]; rfl
    exact h.move h.session ⟨rfl, rfl, rfl⟩ (fun _ => h.gate id hholds)
      (fun other hne hother => absurd hother (h.only hholds hne))
  | @noMore id hphase hmore =>
    have hholds : (world.phase id).holdsGate = true := by rw [hphase]; rfl
    exact h.move h.session trivial (fun _ => h.gate id hholds)
      (fun other hne hother => absurd hother (h.only hholds hne))
  | @merge id query cursors calls hphase outcomes =>
    have hholds : (world.phase id).holdsGate = true := by rw [hphase]; rfl
    exact h.move (h.call _) trivial (fun _ => h.gate id hholds)
      (fun other hne hother => absurd hother (h.only hholds hne))
  | @release id hphase =>
    have hholds : (world.phase id).holdsGate = true := by rw [hphase]; rfl
    exact h.move h.session trivial (fun hdone => by cases hdone)
      (fun other hne hother => absurd hother (h.only hholds hne))
  | @drop id =>
    refine h.move h.session trivial (fun hdone => by cases hdone) (fun other hne hother => ?_)
    rw [if_neg]
    · exact ⟨h.gate other hother, rfl, rfl⟩
    · intro hholds
      exact h.only hholds hne hother

/-- **Interleavings.** Whatever the order of the steps, the gate holds. -/
theorem gated_of_reachable (h : Relation.ReflTransGen Step (World.start start) world) :
    Gated start world := by
  induction h with
  | refl => exact gated_start start
  | tail _ hstep ih => exact ih.step hstep

end Server

/-! ## Search sessions -/

theorem Reflects.nextBatch {session : SearchSession} {search : Search}
    (h : Reflects session search) :
    session.nextBatch = (SourceKind.all.filter search.live).map (fun source =>
      ⟨source, search.cursor source⟩) := by
  have hlive : session.activeSources = search.live := funext h.active
  have hcursor : (fun source => (⟨source, (session.cursors source).join⟩ : ProviderCursor)) =
      fun source => ⟨source, search.cursor source⟩ := funext (fun source => by rw [h.cursor])
  unfold SearchSession.nextBatch
  rw [hlive, hcursor]

theorem hasMore_iff (session : SearchSession) :
    session.view.hasMore = true ↔ session.nextBatch ≠ [] := by
  unfold SearchSession.view SearchSession.nextBatch
  simp only [List.any_eq_true, ne_eq, List.map_eq_nil_iff, List.filter_eq_nil_iff, not_forall,
    Classical.not_not]
  exact exists_congr (fun source => (exists_prop).symm)

theorem newArtworks_congr {seen seen' : List (SourceKind × String)}
    (h : ∀ k, k ∈ seen ↔ k ∈ seen') (outcomes : List ProviderOutcome) :
    newArtworks seen outcomes = newArtworks seen' outcomes := by
  unfold newArtworks
  congr 1
  exact List.map_congr_left (fun source _ => fresh_congr (fun a _ => h a.key))

/-- **Search sessions neither lose nor repeat artworks**, and the gate makes every batch merge into
the search it was requested for. -/
theorem search_sessions_keep_artworks :
    (∀ (start : SearchQuery) (calls : List SessionCall),
      (∀ outcomes, SessionCall.mergeBatch outcomes ∈ calls → ValidBatch outcomes) →
      let session := calls.foldl SearchSession.call (SearchSession.new start)
      let search := calls.foldl Search.call ⟨start, []⟩
      (session.artworks.map Artwork.key).Nodup ∧
      (∀ batch ∈ search.batches, ∀ page, ProviderOutcome.success page ∈ batch →
        ∀ a ∈ page.artworks, a.key ∈ session.artworks.map Artwork.key) ∧
      session.nextBatch = (SourceKind.all.filter search.live).map (fun source =>
        ⟨source, search.cursor source⟩) ∧
      (session.view.hasMore = true ↔ session.nextBatch ≠ []) ∧
      ∀ outcomes, ValidBatch outcomes →
        (session.mergeBatch outcomes).1.artworks =
          session.artworks ++ (session.mergeBatch outcomes).2 ∧
        (session.mergeBatch outcomes).2 =
          newArtworks (session.artworks.map Artwork.key) outcomes) ∧
    ∀ (start : SearchQuery) (world : Server.World),
      Relation.ReflTransGen Server.Step (Server.World.start start) world →
      world.session = world.calls.foldl SearchSession.call (SearchSession.new start) ∧
      ∀ id query cursors calls, world.phase id = .requested query cursors calls →
        world.gate = some id ∧ calls = world.calls ∧ world.session.query = query ∧
          world.session.nextBatch = cursors := by
  refine ⟨fun start calls hvalid => ?_, fun start world hreachable => ?_⟩
  · have h := reflects_calls (reflects_new start) calls hvalid
    refine ⟨h.nodup, h.complete, h.nextBatch, hasMore_iff _, fun outcomes houtcomes => ?_⟩
    have hmerged := mergeBatch_merged (calls.foldl SearchSession.call (SearchSession.new start))
      houtcomes
    exact ⟨hmerged.artworks, hmerged.interleaved.trans (newArtworks_congr h.seen outcomes)⟩
  · have h := Server.gated_of_reachable hreachable
    refine ⟨h.session, fun id query cursors calls hphase => ?_⟩
    have hagrees := h.agrees id
    rw [hphase] at hagrees
    exact ⟨h.gate id (by rw [hphase]; rfl), hagrees.1, hagrees.2.1, hagrees.2.2⟩

/-- Two museums asked for one phrase. -/
def lionQuery : SearchQuery :=
  ⟨⟨"lion", by decide⟩, ⟨[.artInstituteChicago, .wikimediaCommons], by decide, by decide⟩, none⟩

def lion (source : SourceKind) (sourceId : String) : Artwork where
  source := source
  sourceId := sourceId
  title := "Lion"
  creator := none
  date := none
  culture := none
  license := .cc0
  imageUrls := ⟨"", "", none⟩
  institution := source.key
  providerCredit := none
  objectUrl := ""

/-- A page that repeats a key, and a failure. -/
def lionBatch : List ProviderOutcome :=
  [.success ⟨.artInstituteChicago,
    [lion .artInstituteChicago "1", lion .artInstituteChicago "2", lion .artInstituteChicago "1"],
    some "2"⟩, .failed .wikimediaCommons]

theorem lionBatch_valid : ValidBatch lionBatch where
  oneEach := by decide
  own := by
    intro page hpage
    simp only [lionBatch, List.mem_cons, List.not_mem_nil, or_false, reduceCtorEq,
      ProviderOutcome.success.injEq] at hpage
    subst hpage
    decide

theorem search_sessions_keep_artworks_lion :
    ((SearchSession.new lionQuery).mergeBatch lionBatch).1.nextBatch =
        [⟨.artInstituteChicago, some "2"⟩] ∧
      ((SearchSession.new lionQuery).mergeBatch lionBatch).2 =
        [lion .artInstituteChicago "1", lion .artInstituteChicago "2"] ∧
      (Server.World.start lionQuery).session = SearchSession.new lionQuery := by
  obtain ⟨hruns, hworlds⟩ := search_sessions_keep_artworks
  have hbatch := hruns lionQuery [.mergeBatch lionBatch] (by
    intro outcomes houtcomes
    rw [List.mem_singleton, SessionCall.mergeBatch.injEq] at houtcomes
    rw [houtcomes]
    exact lionBatch_valid)
  have hempty := hruns lionQuery [] (by simp)
  refine ⟨?_, ?_, (hworlds lionQuery _ Relation.ReflTransGen.refl).1⟩
  · exact hbatch.2.2.1.trans (by decide)
  · exact (hempty.2.2.2.2 lionBatch lionBatch_valid).2.trans (by decide)

end Summoners.Cceroby
