import Summoners.Cards.Authored
import Summoners.Cards.Loaded
import Summoners.Cards.Specimen
import Summoners.Proof.Decisions
import Summoners.Proof.Verified

/-! # What a verdict says

A replay comes to a verdict over every library that the loader assembles. It is favourable for the
transcripts that a recorder writes and for no other, and where a step is reported, the match up to that
step is the engine's.
-/

namespace Summoners
set_option autoImplicit false
open Checked

/-- An accepted action keeps the card pool. -/
theorem Accepted.cards {state : GameState} {action : GameAction} {outcome : ActionOutcome}
    (h : Accepted state action outcome) : outcome.state.cards = state.cards := by
  obtain ⟨tr, hcall, -⟩ := accepted_iff.mp h
  refine hcall.induct (I := fun _ t => t.cards = state.cards) (fun hacc => ?_) (fun hI hnext => ?_)
  · obtain ⟨hplaying, hstep, -⟩ := accept_step hacc
    exact hstep.cards hplaying
  · rw [drainStep_cards hnext, hI]

namespace Replay

section
variable {compute : StateProjectionV1 → Except CanonicalStateError StateDigestV1} {fuel : ℕ}
  {current next : ReplayState} {step : TranscriptStepV1} {steps : List TranscriptStepV1}

theorem replayStep_returns (step : TranscriptStepV1)
    (hcards : current.state.cards.TriggersAdmitted) :
    ∃ fuel answer, replayStep compute (applyEngine fuel) current step = some answer := by
  unfold replayStep
  cases step.action.action.tryIntoCore with
  | error e => exact ⟨0, _, rfl⟩
  | ok action =>
      obtain ⟨fuel, answer, happly⟩ := apply_returns hcards action
      refine ⟨fuel, replayAnswer compute current step ⟨answer, current.state, true⟩, ?_⟩
      unfold applyEngine
      simp only [happly, Option.map_some]

theorem replayStep_cards
    (h : replayStep compute (applyEngine fuel) current step = some (.ok next)) :
    next.state.cards = current.state.cards := by
  obtain ⟨action, -, hconfirms⟩ := replayStep_ok_iff.mp h
  cases hconfirms with
  | accepted _ happly _ _ => exact Accepted.cards ⟨fuel, happly⟩
  | rejected => rfl

/-! ## Where a departure is found -/

/-- The errors of a step are located at it. -/
def AtStep (number : ℕ) (error : ReplayError) : Prop :=
  ∃ index path, error.location = some (.atStep number index path)

theorem failsOnly_verifyDigest {expected : StateDigestV1} {projection : StateProjectionV1}
    {number : ℕ} {index : Option ℕ} {path : String} :
    FailsOnly (AtStep number)
      (verifyDigest compute expected projection (.atStep number index path)) := by
  refine .bind (.mapError fun e => ⟨index, path, rfl⟩) (fun actual => .ite (.ok ()) (.error ?_))
  exact ⟨index, path, rfl⟩

theorem failsOnly_verifyEvent {number index : ℕ} {records : List EventRecordV1}
    {events : List GameEvent} :
    FailsOnly (AtStep number) (verifyEvent number records events index) := by
  unfold verifyEvent
  cases records[index]? with
  | none => exact .bind (.ok none) (fun core => .ite (.error ⟨_, _, rfl⟩) (.ok ()))
  | some record =>
      exact .bind (.mapError fun e => ⟨_, _, rfl⟩)
        (fun core => .ite (.error ⟨_, _, rfl⟩) (.ok ()))

theorem failsOnly_verifyAcceptedStep {number : ℕ} {records : List EventRecordV1}
    {expected : StateDigestV1} {outcome : ActionOutcome} :
    FailsOnly (AtStep number) (verifyAcceptedStep compute number records expected outcome) := by
  refine .bind (.forM fun index _ => failsOnly_verifyEvent) (fun _ => ?_)
  exact .bind failsOnly_verifyDigest (fun _ => .mapError (fun e => ⟨_, _, rfl⟩))

theorem failsOnly_verifyRejectedStep {number : ℕ} {rejection : StepRejectedV1} {error : ActionError}
    {before after : GameState} {sharesCards : Bool} {digest : StateDigestV1} :
    FailsOnly (AtStep number)
      (verifyRejectedStep compute number rejection error before after sharesCards digest) := by
  refine .ite (.error ⟨_, _, rfl⟩) (.ite (.error ⟨_, _, rfl⟩) (.ite (.error ⟨_, _, rfl⟩) ?_))
  exact .bind failsOnly_verifyDigest (fun _ => .ite (.error ⟨_, _, rfl⟩) (.ok ()))

theorem failsOnly_replayAnswer {answer : EngineAnswer} :
    FailsOnly (AtStep step.action.step) (replayAnswer compute current step answer) := by
  unfold replayAnswer
  cases step.result with
  | accepted events completion =>
      cases answer.result with
      | ok outcome => exact .bind failsOnly_verifyAcceptedStep (fun _ => .bind (.ok _) fun _ => .ok _)
      | error e => exact .bind (.error ⟨_, _, rfl⟩) (fun _ => .ok _)
  | rejected rejection =>
      cases answer.result with
      | ok outcome => exact .bind (.error ⟨_, _, rfl⟩) (fun _ => .ok _)
      | error e => exact .bind failsOnly_verifyRejectedStep (fun _ => .bind (.ok _) fun _ => .ok _)

/-- An error that is located at no step. -/
def Elsewhere (error : ReplayError) : Prop :=
  ∀ location, error.location = some location → location.phase ≠ .step

theorem elsewhere_divergence {location : ReplayLocation} {kind : ReplayDivergenceKind}
    (h : location.phase ≠ .step) : Elsewhere (divergence location kind) := by
  intro found hfound
  cases hfound
  exact h

theorem failsOnly_verifyDigest_elsewhere {expected : StateDigestV1} {projection : StateProjectionV1}
    {location : ReplayLocation} (h : location.phase ≠ .step) :
    FailsOnly Elsewhere (verifyDigest compute expected projection location) := by
  refine .bind (.mapError fun e found hfound => ?_)
    (fun actual => .ite (.ok ()) (.error (elsewhere_divergence h)))
  cases hfound
  exact h

theorem failsOnly_prepareInitialStateWith {requirements : List SetRequirementV1}
    {projection : StateProjectionV1} {digest : StateDigestV1} {setRevision : String → Option UInt32}
    {cards : CardSet} : FailsOnly Elsewhere
      (prepareInitialStateWith compute requirements projection digest setRevision cards) := by
  refine .bind (.forM fun requirement _ => .ite (.error (elsewhere_divergence nofun)) (.ok _))
    (fun _ => .bind (.mapError fun e found hfound => ?_) (fun state => .bind ?_ (fun _ => .ok _)))
  · cases hfound
    exact nofun
  · exact .ite (.error (elsewhere_divergence nofun)) (failsOnly_verifyDigest_elsewhere nofun)

theorem failsOnly_verifyCompletion {t : TranscriptV1} {state : GameState} {facts : ReplayFacts} :
    FailsOnly Elsewhere (verifyCompletion compute t state facts) := by
  have hstop : ∀ {α : Type} {path : String} {kind : ReplayDivergenceKind},
      FailsOnly Elsewhere (.error (divergence (.completion path) kind) : Except ReplayError α) :=
    .error (elsewhere_divergence nofun)
  refine .ite hstop (.bind ?_ fun outcome => .bind (.ite hstop (.ite hstop (.ok ()))) fun _ =>
    .ite hstop (.ite hstop (.bind (failsOnly_verifyDigest_elsewhere nofun) fun _ =>
      failsOnly_verifyDigest_elsewhere nofun)))
  unfold verifyOutcome
  split
  · split
    · exact .ite hstop (.ok _)
    · exact hstop
    · exact hstop
  · exact hstop

theorem replayStep_located {error : ReplayError}
    (h : replayStep compute (applyEngine fuel) current step = some (.error error)) :
    AtStep step.action.step error := by
  unfold replayStep at h
  cases hread : step.action.action.tryIntoCore with
  | error e =>
      rw [hread] at h
      cases h
      exact ⟨_, _, rfl⟩
  | ok action =>
      simp only [hread, Option.map_eq_some_iff] at h
      obtain ⟨answer, -, hanswer⟩ := h
      exact failsOnly_replayAnswer error hanswer

/-- A replay stops at the first step that is not confirmed. -/
theorem replayFrom_error_iff {error : ReplayError} :
    replayFrom compute (applyEngine fuel) current steps = some (.error error) ↔
      ∃ before step after mid, steps = before ++ step :: after ∧
        replayFrom compute (applyEngine fuel) current before = some (.ok mid) ∧
        replayStep compute (applyEngine fuel) mid step = some (.error error) := by
  induction steps generalizing current with
  | nil => simp [replayFrom]
  | cons first steps ih =>
      rw [replayFrom]
      constructor
      · intro h
        cases hfirst : replayStep compute (applyEngine fuel) current first with
        | none =>
            rw [hfirst] at h
            cases h
        | some answer =>
            rw [hfirst] at h
            cases answer with
            | error e => exact ⟨[], first, steps, current, rfl, rfl, by rw [hfirst]; exact h⟩
            | ok next =>
                obtain ⟨before, step, after, mid, hsteps, hbefore, hstep⟩ := ih.mp h
                refine ⟨first :: before, step, after, mid, ?_, ?_, hstep⟩
                · rw [hsteps, List.cons_append]
                · exact replayFrom_cons_ok_iff.mpr ⟨next, hfirst, hbefore⟩
      · rintro ⟨_ | ⟨head, before⟩, step, after, mid, hsteps, hbefore, hstep⟩
        · cases hbefore
          obtain ⟨rfl, -⟩ := List.cons.inj hsteps
          rw [hstep]
        · obtain ⟨rfl, hrest⟩ := List.cons.inj hsteps
          obtain ⟨next, hfirst, hbefore⟩ := replayFrom_cons_ok_iff.mp hbefore
          rw [hfirst]
          exact ih.mpr ⟨before, step, after, mid, hrest, hbefore, hstep⟩

/-! ## Ending -/

/-- The loop over the steps ends, as the engine answers every one. -/
theorem replayFrom_returns (steps : List TranscriptStepV1) (current : ReplayState)
    (hcards : current.state.cards.TriggersAdmitted) :
    ∃ fuel answer, replayFrom compute (applyEngine fuel) current steps = some answer := by
  induction steps generalizing current with
  | nil => exact ⟨0, _, rfl⟩
  | cons step steps ih =>
      obtain ⟨fuel, answer, hstep⟩ : ∃ fuel answer,
          replayStep compute (applyEngine fuel) current step = some answer :=
        replayStep_returns step hcards
      cases answer with
      | error e =>
          refine ⟨fuel, .error e, ?_⟩
          rw [replayFrom, hstep]
      | ok mid =>
          obtain ⟨fuel', answer, hsteps⟩ := ih mid (by
            rw [replayStep_cards hstep]
            exact hcards)
          refine ⟨max fuel fuel', answer, ?_⟩
          rw [replayFrom, replayStep_mono (Nat.le_max_left _ _) hstep]
          exact replayFrom_mono (Nat.le_max_right _ _) hsteps

theorem cards_of_intoGameState {projection : StateProjectionV1} {cards : CardSet} {state : GameState}
    (h : projection.intoGameState cards = .ok state) : state.cards = cards := by
  simp only [StateProjectionV1.intoGameState, bind_ok_iff, pure_ok_iff] at h
  obtain ⟨_, -, _, -, _, -, _, -, _, -, rfl⟩ := h
  rfl

variable {t : TranscriptV1} {library : CardLibrary}

theorem verifyParsedTranscript_mono {fuel' : ℕ} (hle : fuel ≤ fuel')
    {answer : Except ReplayError Unit}
    (h : verifyParsedTranscript compute fuel t library = some answer) :
    verifyParsedTranscript compute fuel' t library = some answer := by
  unfold verifyParsedTranscript replayStepsWith at h ⊢
  cases hprepare : prepareInitialStateWith compute t.matchCreated.requiredSets
      t.matchCreated.initialState t.matchCreated.stateDigest library.setRevision
      library.coreCards with
  | error e =>
      simp only [hprepare] at h ⊢
      exact h
  | ok initial =>
      simp only [hprepare] at h ⊢
      cases hdigest : computeDigest compute (StateProjectionV1.fromState initial)
          (.initial "match_created.state_digest") with
      | error e =>
          simp only [hdigest] at h ⊢
          exact h
      | ok digest =>
          simp only [hdigest, Option.map_eq_some_iff] at h ⊢
          obtain ⟨replayed, hreplay, hverify⟩ := h
          exact ⟨replayed, replayFrom_mono hle hreplay, hverify⟩

theorem verifyParsedTranscript_returns (t : TranscriptV1)
    (hcards : library.coreCards.TriggersAdmitted) :
    ∃ fuel answer, verifyParsedTranscript compute fuel t library = some answer := by
  unfold verifyParsedTranscript replayStepsWith
  cases hprepare : prepareInitialStateWith compute t.matchCreated.requiredSets
      t.matchCreated.initialState t.matchCreated.stateDigest library.setRevision
      library.coreCards with
  | error e =>
      refine ⟨0, .error e, ?_⟩
      simp only [hprepare]
  | ok initial =>
      obtain ⟨-, hinitial, -⟩ := prepareInitialStateWith_ok_iff.mp hprepare
      cases hdigest : computeDigest compute (StateProjectionV1.fromState initial)
          (.initial "match_created.state_digest") with
      | error e =>
          refine ⟨0, .error e, ?_⟩
          simp only [hprepare, hdigest]
          rfl
      | ok digest =>
          obtain ⟨fuel, answer, hreplay⟩ : ∃ fuel answer, replayFrom compute (applyEngine fuel)
              ⟨initial, digest, .default⟩ t.steps = some answer :=
            replayFrom_returns t.steps ⟨initial, digest, .default⟩ (by
              show initial.cards.TriggersAdmitted
              rw [cards_of_intoGameState hinitial]
              exact hcards)
          refine ⟨fuel, answer.bind (fun last => verifyCompletion compute t last.state last.facts), ?_⟩
          simp only [hprepare, hdigest, hreplay, Option.map_some]
          rfl

end

/-! ## The verdicts -/

section
variable {serde : Serde} {t t' : TranscriptV1} {library : CardLibrary} {bytes : List UInt8}

/-- What the parser returns is well-formed. -/
theorem wellFormed_of_parse (h : TranscriptV1.parse serde bytes = .ok t) :
    ∃ outcome, t.WellFormed serde.compute outcome := by
  unfold TranscriptV1.parse at h
  obtain ⟨ds, -, hfold⟩ := bind_ok_iff.mp h
  exact (foldRecords_ok_iff.mp hfold).2

theorem verifyTranscript_of_parse (h : TranscriptV1.parse serde bytes = .ok t) (fuel : ℕ) :
    verifyTranscript serde fuel bytes library =
      verifyParsedTranscript serde.compute fuel t library := by
  unfold verifyTranscript
  simp only [h]

/-- The actions of the steps are read back as they were submitted. -/
theorem reads_of_recounts {compute : StateProjectionV1 → Except CanonicalStateError StateDigestV1}
    {initial state : GameState} {actions : List GameAction} {steps : List TranscriptStepV1}
    (h : Recounts compute initial actions steps state) :
    steps.map (fun step => step.action.action.tryIntoCore) = actions.map Except.ok := by
  induction h with
  | start => rfl
  | accepted _ _ haction _ _ ih | rejected _ _ haction _ _ ih =>
      rw [List.map_append, List.map_append, ih, List.map_singleton, List.map_singleton]
      dsimp only
      rw [haction, ActionV1.lossless.dec_enc trivial]

/-- The state that a canonical transcript starts from is written as it stands there. -/
theorem initial_written (hcanonical : ∀ record ∈ t.records, record.Canonical) {cards : CardSet}
    {initial : GameState} (h : t.matchCreated.initialState.intoGameState cards = .ok initial) :
    StateProjectionV1.fromState initial = t.matchCreated.initialState := by
  have hcreated := hcanonical (.matchCreated t.matchCreated) (by simp [TranscriptV1.records])
  exact (StateProjectionV1.lossless cards).enc_dec hcreated.1 h

/-- The bytes of a complete recording are verified with the cards and the Sets of the match. -/
theorem verifies_of_whole (library : CardLibrary) {metadata : List (String × JsonValue)} {requiredSets : List SetRequirementV1}
    {digest : StateDigestV1} {initial : GameState} {actions : List GameAction} {outcome : GameOutcome}
    {m : RecordedMatch (List (List UInt8))}
    (h : WrittenWhole serde (HeaderV1.new metadata)
      (MatchCreatedV1.new requiredSets (StateProjectionV1.fromState initial) digest) initial actions
      outcome t m)
    (hplaying : initial.status = .playing)
    (hserde : ∀ record bytes, serde.toVec record = .ok bytes → bytes ++ [10] ∈ m.writer →
      serde.ReadsBack record bytes)
    (hsets : ∀ r ∈ requiredSets, library.setRevision r.set = some r.revision)
    (hcards : library.coreCards = initial.cards) :
    ∃ fuel, verifyTranscript serde fuel m.writer.flatten library = some (.ok ()) := by
  obtain ⟨hparse, -⟩ := h.parse hserde
  simp only [verifyTranscript_of_parse hparse,
    verifyParsedTranscript_ok_iff h.wellFormed h.canonical, h.created]
  refine ⟨hsets, initial, actions, m.state, ?_, rfl, reads_of_recounts h.recounts, h.recounts,
    h.final.symm⟩
  refine (StateProjectionV1.lossless library.coreCards).dec_enc ⟨?_, hcards.symm⟩
  rw [hplaying]
  intro b hb
  cases hb

end

/-! ## Known transcripts -/

section
variable {known : KnownTexts}

/-- The known texts, with a writer that writes an empty map for any other record. -/
def totalSerde (known : KnownTexts) : Serde :=
  { known.serde with
    toVec := fun record => match known.serde.toVec record with
      | .ok bytes => .ok bytes
      | .error _ => .ok [123, 125] }

theorem totalSerde_writes (known : KnownTexts) : (totalSerde known).Writes := by
  intro record
  unfold totalSerde
  cases h : known.serde.toVec record with
  | ok bytes => exact ⟨bytes, by simp only [h]⟩
  | error e => exact ⟨[123, 125], by simp only [h]⟩

theorem KnownTexts.toVec_mem {record : RecordV1} {bytes : List UInt8}
    (h : known.serde.toVec record = .ok bytes) : ∃ entry ∈ known.records, bytes = utf8 entry.2 := by
  simp only [KnownTexts.serde] at h
  split at h
  · rename_i entry hfind
    cases h
    exact ⟨entry, List.mem_of_find?_eq_some hfind, rfl⟩
  · cases h

/-- What a reader of a whole list reads of each entry. -/
theorem ok_of_mapM {α β ε : Type} {f : α → Except ε β} {xs : List α} {ys : List β}
    (h : xs.mapM f = .ok ys) {x : α} (hx : x ∈ xs) : ∃ y, f x = .ok y := by
  induction xs generalizing ys with
  | nil => exact absurd hx List.not_mem_nil
  | cons first xs ih =>
      obtain ⟨y, hy, rest, hrest, -⟩ := mapM_cons_ok_iff.mp h
      obtain rfl | hx := List.mem_cons.mp hx
      · exact ⟨y, hy⟩
      · exact ih hrest hx

theorem totalSerde_readsAll (hlines : known.Lines)
    (hempty : ∀ entry ∈ known.records, utf8 entry.2 ≠ [123, 125]) {records : List RecordV1}
    (hknown : ∀ record ∈ records, ∃ entry ∈ known.records,
      known.serde.toVec record = .ok (utf8 entry.2)) : (totalSerde known).ReadsAll records := by
  intro written hwritten record bytes hbytes hsame
  obtain ⟨entry, hentry, htext⟩ := hknown written hwritten
  have hne := hempty entry hentry
  unfold totalSerde at hbytes hsame
  simp only [htext, Except.ok.injEq] at hbytes
  subst hbytes
  cases h : known.serde.toVec record with
  | error e =>
      simp only [h, Except.ok.injEq] at hsame
      exact absurd hsame.symm hne
  | ok bytes =>
      simp only [h, Except.ok.injEq] at hsame
      subst hsame
      obtain ⟨hone, hreturn, htext⟩ := KnownTexts.readsBack hlines record _ h
      exact ⟨hone, hreturn, htext⟩

theorem decodeLines_totalSerde (lines : List (List UInt8)) (number : ℕ) :
    decodeLines (totalSerde known) number lines = decodeLines known.serde number lines := by
  induction lines generalizing number with
  | nil => rfl
  | cons line lines ih =>
      have hrecord : decodeRecord (totalSerde known) (chomp line) number =
          decodeRecord known.serde (chomp line) number := rfl
      rw [decodeLines, decodeLines, ih, hrecord]

theorem parse_totalSerde (bytes : List UInt8) :
    TranscriptV1.parse (totalSerde known) bytes = TranscriptV1.parse known.serde bytes := by
  unfold TranscriptV1.parse
  rw [decodeLines_totalSerde]
  rfl

/-- The transcript of a resignation, as a recorder writes it. -/
theorem resignation_whole : ∃ t digest m, WrittenWhole Resignation.known.serde (HeaderV1.new [])
    (MatchCreatedV1.new [] (StateProjectionV1.fromState Resignation.initial) digest)
    Resignation.initial [.resign .one] ⟨.two, .resignation⟩ t m := by
  obtain ⟨m₀, m', hstart, hinitial, hsubmit, hcompleted, hended⟩ := Resignation.recorded
  obtain ⟨digest, hopen⟩ := writtenSoFar_start hstart
  have hlast : m₀.Submit Resignation.known.serde .memory (.resign .one)
      (.ok (.accepted [.gameEnded .two .resignation])) m' :=
    ⟨_, fun _ => ⟨0, by rw [hinitial]; rfl⟩, hsubmit⟩
  obtain ⟨s, hs⟩ | ⟨outcome, t, hwhole, -⟩ := hopen.submit hlast
  · have hstill := hs.active
    rw [hcompleted] at hstill
    cases hstill
  · have hsame := hwhole.ended
    rw [hended] at hsame
    obtain rfl := GameStatus.ended.inj hsame
    exact ⟨t, digest, m', hwhole⟩

/-- A library without any card. -/
def noCards : CardLibrary := ⟨[], [], ⟨[]⟩⟩

end

/-- **A transcript is verified exactly if a recorder writes it.** A canonical transcript passes, for
some amount of fuel, if and only if the library holds its Sets at the revisions it requires, its state
and its actions can be rebuilt, and a recorder that is started on this state and given these actions
writes the transcript's records, one for one, and completes. -/
theorem verified_iff_recorded (serde : Serde) (bytes : List UInt8) (library : CardLibrary)
    (t : TranscriptV1) (hparse : TranscriptV1.parse serde bytes = .ok t)
    (hcanonical : ∀ record ∈ t.records, record.Canonical) (hwrites : serde.Writes)
    (hback : serde.ReadsAll t.records) :
    (∃ fuel, verifyTranscript serde fuel bytes library = some (.ok ())) ↔
      (∀ r ∈ t.matchCreated.requiredSets, library.setRevision r.set = some r.revision) ∧
        ∃ initial actions,
          t.matchCreated.initialState.intoGameState library.coreCards = .ok initial ∧
          t.steps.map (fun step => step.action.action.tryIntoCore) = actions.map Except.ok ∧
          t.WrittenBy serde initial actions := by
  obtain ⟨outcome, hwell⟩ := wellFormed_of_parse hparse
  simp only [verifyTranscript_of_parse hparse, verifyParsedTranscript_ok_iff hwell hcanonical]
  refine and_congr_right fun _ => ?_
  constructor
  · rintro ⟨initial, actions, state, hinitial, hprojection, hreads, hrun, hfinal⟩
    exact ⟨initial, actions, hinitial, hreads,
      recorder_writes hwell hcanonical hwrites hprojection hrun hfinal⟩
  · rintro ⟨initial, actions, hinitial, hreads, hwritten⟩
    obtain ⟨state, hrun, hfinal⟩ := recorder_wrote hwell hback hwritten
    exact ⟨initial, actions, state, hinitial, initial_written hcanonical hinitial, hreads, hrun, hfinal⟩

/-- A resignation is verified, and so it is what a recorder writes. -/
theorem verified_iff_recorded_resignation : ∃ bytes t initial actions,
    TranscriptV1.parse (totalSerde Resignation.known) bytes = .ok t ∧
      (∃ fuel, verifyTranscript (totalSerde Resignation.known) fuel bytes noCards = some (.ok ())) ∧
      t.matchCreated.initialState.intoGameState noCards.coreCards = .ok initial ∧
      t.WrittenBy (totalSerde Resignation.known) initial actions := by
  obtain ⟨t, digest, m, hwhole⟩ := resignation_whole
  have hlines := Resignation.known_lines
  have hserde : ∀ record bytes, Resignation.known.serde.toVec record = .ok bytes →
      bytes ++ [10] ∈ m.writer → Resignation.known.serde.ReadsBack record bytes :=
    fun record bytes h _ => KnownTexts.readsBack hlines record bytes h
  obtain ⟨hparse, -⟩ := hwhole.parse hserde
  obtain ⟨fuel, hverdict⟩ := verifies_of_whole noCards hwhole rfl hserde (by simp) rfl
  rw [← parse_totalSerde] at hparse
  have hverified : verifyTranscript (totalSerde Resignation.known) fuel m.writer.flatten noCards =
      some (.ok ()) := by
    unfold verifyTranscript at hverdict ⊢
    rw [parse_totalSerde]
    exact hverdict
  have hknown : ∀ record ∈ t.records, ∃ entry ∈ Resignation.known.records,
      Resignation.known.serde.toVec record = .ok (utf8 entry.2) := by
    intro record hrecord
    obtain ⟨chunk, hchunk⟩ := ok_of_mapM hwhole.written hrecord
    simp only [Serde.encodeRecord, bind_ok_iff, pure_ok_iff] at hchunk
    obtain ⟨text, htext, -⟩ := hchunk
    obtain ⟨entry, hentry, rfl⟩ := KnownTexts.toVec_mem htext
    exact ⟨entry, hentry, htext⟩
  obtain ⟨-, initial, actions, hinitial, -, hwritten⟩ :=
    (verified_iff_recorded (totalSerde Resignation.known) m.writer.flatten noCards t hparse
      hwhole.canonical (totalSerde_writes _)
      (totalSerde_readsAll hlines (by decide +kernel) hknown)).mp ⟨fuel, hverified⟩
  exact ⟨_, t, initial, actions, hparse, ⟨fuel, hverified⟩, hinitial, hwritten⟩

/-- **Whatever is changed is noticed.** Of all canonical transcripts with given metadata, requirements,
initial state and actions, a library verifies at most one: nothing else in a verified transcript can be
changed, left out or added. -/
theorem verified_transcripts_unique (serde : Serde) (bytes bytes' : List UInt8) (library : CardLibrary)
    (t t' : TranscriptV1) (hparse : TranscriptV1.parse serde bytes = .ok t)
    (hparse' : TranscriptV1.parse serde bytes' = .ok t')
    (hcanonical : ∀ record ∈ t.records, record.Canonical)
    (hcanonical' : ∀ record ∈ t'.records, record.Canonical) (hsame : t.SameMatch t')
    (hactions : t.steps.map (·.action.action) = t'.steps.map (·.action.action))
    (hverified : ∃ fuel, verifyTranscript serde fuel bytes library = some (.ok ()))
    (hverified' : ∃ fuel, verifyTranscript serde fuel bytes' library = some (.ok ())) : t = t' := by
  obtain ⟨outcome, hwell⟩ := wellFormed_of_parse hparse
  obtain ⟨outcome', hwell'⟩ := wellFormed_of_parse hparse'
  simp only [verifyTranscript_of_parse hparse, verifyParsedTranscript_ok_iff hwell hcanonical]
    at hverified
  simp only [verifyTranscript_of_parse hparse', verifyParsedTranscript_ok_iff hwell' hcanonical']
    at hverified'
  obtain ⟨-, initial, actions, state, hinitial, -, hreads, hrun, hfinal⟩ := hverified
  obtain ⟨-, initial', actions', state', hinitial', -, hreads', hrun', hfinal'⟩ := hverified'
  obtain rfl : initial = initial' := by
    rw [← hsame.2.2, hinitial] at hinitial'
    exact Except.ok.inj hinitial'
  obtain rfl : actions = actions' := by
    have hread : t.steps.map (fun step => step.action.action.tryIntoCore) =
        t'.steps.map (fun step => step.action.action.tryIntoCore) := by
      have hmapped := congrArg (List.map ActionV1.tryIntoCore) hactions
      rwa [List.map_map, List.map_map] at hmapped
    rw [hreads, hreads'] at hread
    exact List.map_injective_iff.mpr (fun _ _ => Except.ok.inj) hread
  exact TranscriptV1.eq_of_recounts hsame hwell hwell' (canonical_header hcanonical)
    (canonical_header hcanonical') hrun hrun' hfinal hfinal'

/-- No other transcript of a resignation is verified. -/
theorem verified_transcripts_unique_resignation : ∃ bytes t,
    TranscriptV1.parse Resignation.known.serde bytes = .ok t ∧
      (∃ fuel, verifyTranscript Resignation.known.serde fuel bytes noCards = some (.ok ())) ∧
      ∀ bytes' t', TranscriptV1.parse Resignation.known.serde bytes' = .ok t' →
        (∀ record ∈ t'.records, record.Canonical) → t.SameMatch t' →
        t.steps.map (·.action.action) = t'.steps.map (·.action.action) →
        (∃ fuel, verifyTranscript Resignation.known.serde fuel bytes' noCards = some (.ok ())) →
        t = t' := by
  obtain ⟨t, digest, m, hwhole⟩ := resignation_whole
  have hserde : ∀ record bytes, Resignation.known.serde.toVec record = .ok bytes →
      bytes ++ [10] ∈ m.writer → Resignation.known.serde.ReadsBack record bytes :=
    fun record bytes h _ => KnownTexts.readsBack Resignation.known_lines record bytes h
  obtain ⟨hparse, -⟩ := hwhole.parse hserde
  have hverified := verifies_of_whole noCards hwhole rfl hserde (by simp) rfl
  exact ⟨_, t, hparse, hverified, fun bytes' t' hparse' hcanonical' hsame hactions hverified' =>
    verified_transcripts_unique _ _ bytes' noCards t t' hparse hparse' hwhole.canonical hcanonical'
      hsame hactions hverified hverified'⟩

/-- **A recorded match is verified.** The bytes a recorder has written when it completes a match pass
the verification with every library that holds the match's cards and its Sets at the required
revisions. -/
theorem recorded_match_verifies (serde : Serde) (metadata : List (String × JsonValue))
    (requiredSets : List SetRequirementV1) (initial : GameState)
    (m₀ m m' : RecordedMatch (List (List UInt8))) (actions : List GameAction)
    (results : List (Except RecordingError RecordedStep)) (last : GameAction) (step : RecordedStep)
    (library : CardLibrary)
    (hstart : RecordedMatch.start serde .memory [] metadata requiredSets initial = .ok m₀)
    (hsubmits : m₀.Submits serde .memory actions results m)
    (hlast : m.Submit serde .memory last (.ok step) m')
    (hcompleted : m'.lifecycle = .stopped .matchCompleted)
    (hserde : ∀ record bytes, serde.toVec record = .ok bytes → bytes ++ [10] ∈ m'.writer →
      serde.ReadsBack record bytes)
    (hsets : ∀ r ∈ requiredSets, library.setRevision r.set = some r.revision)
    (hcards : library.coreCards = initial.cards) :
    ∃ fuel, verifyTranscript serde fuel m'.writer.flatten library = some (.ok ()) := by
  obtain ⟨digest, hopen⟩ := writtenSoFar_start hstart
  have hactive : m.lifecycle = .active := by
    obtain ⟨answer, -, hsubmit⟩ := hlast
    exact (RecordedMatch.submitWith_ok hsubmit).1
  obtain ⟨steps, hsteps⟩ := hopen.submits hsubmits hactive
  obtain ⟨s, hs⟩ | ⟨outcome, t, hwhole, -⟩ := hsteps.submit hlast
  · have hstill := hs.active
    rw [hcompleted] at hstill
    cases hstill
  · exact verifies_of_whole library hwhole (RecordedMatch.start_playing hstart).2 hserde hsets hcards

/-- A recorded resignation is verified. -/
theorem recorded_match_verifies_resignation : ∃ m₀ m' fuel,
    RecordedMatch.start Resignation.known.serde .memory [] [] [] Resignation.initial = .ok m₀ ∧
      m₀.Submit Resignation.known.serde .memory (.resign .one)
        (.ok (.accepted [.gameEnded .two .resignation])) m' ∧
      verifyTranscript Resignation.known.serde fuel m'.writer.flatten noCards = some (.ok ()) := by
  obtain ⟨m₀, m', hstart, hinitial, hsubmit, hcompleted, -⟩ := Resignation.recorded
  have hlast : m₀.Submit Resignation.known.serde .memory (.resign .one)
      (.ok (.accepted [.gameEnded .two .resignation])) m' :=
    ⟨_, fun _ => ⟨0, by rw [hinitial]; rfl⟩, hsubmit⟩
  obtain ⟨fuel, hverified⟩ := recorded_match_verifies _ [] [] Resignation.initial m₀ m₀ m' [] []
    (.resign .one) _ noCards hstart .nil hlast hcompleted
    (fun record bytes h _ => KnownTexts.readsBack Resignation.known_lines record bytes h) (by simp) rfl
  exact ⟨m₀, m', fuel, hstart, hlast, hverified⟩

/-- **A reported step is the first that departs from the engine.** Where the verification of a canonical
transcript reports a step, all steps before it recount the match from the transcript's initial state,
and the step itself recounts no answer of the engine to any action. -/
theorem departure_located (serde : Serde) (bytes : List UInt8) (library : CardLibrary)
    (t : TranscriptV1) (fuel : ℕ) (error : ReplayError) (number : ℕ) (index : Option ℕ)
    (path : String) (hparse : TranscriptV1.parse serde bytes = .ok t)
    (hcanonical : ∀ record ∈ t.records, record.Canonical)
    (hverdict : verifyTranscript serde fuel bytes library = some (.error error))
    (hlocation : error.location = some (.atStep number index path)) :
    ∃ before step after initial actions state, t.steps = before ++ step :: after ∧
      before.length + 1 = number ∧
      t.matchCreated.initialState.intoGameState library.coreCards = .ok initial ∧
      before.map (fun step => step.action.action.tryIntoCore) = actions.map Except.ok ∧
      Recounts serde.compute initial actions before state ∧
      ∀ action next, ¬RecountsStep serde.compute state action step next := by
  obtain ⟨outcome, hwell⟩ := wellFormed_of_parse hparse
  have hstep : ¬Elsewhere error := fun h => h _ hlocation rfl
  rw [verifyTranscript_of_parse hparse] at hverdict
  unfold verifyParsedTranscript replayStepsWith at hverdict
  cases hprepare : prepareInitialStateWith serde.compute t.matchCreated.requiredSets
      t.matchCreated.initialState t.matchCreated.stateDigest library.setRevision
      library.coreCards with
  | error e =>
      simp only [hprepare] at hverdict
      cases hverdict
      exact absurd (failsOnly_prepareInitialStateWith _ hprepare) hstep
  | ok initial =>
      obtain ⟨-, hinitial, hprojection, -⟩ := prepareInitialStateWith_ok_iff.mp hprepare
      have hdigest : serde.compute (StateProjectionV1.fromState initial) =
          .ok t.matchCreated.stateDigest := by
        rw [hprojection]
        exact hwell.initial_digest
      simp only [hprepare, computeDigest_ok_iff.mpr hdigest, Option.map_eq_some_iff] at hverdict
      obtain ⟨replayed, hreplay, hverdict⟩ := hverdict
      obtain rfl | ⟨last, rfl, hlast⟩ := bind_error_iff.mp hverdict
      · obtain ⟨before, step, after, mid, hsteps, hbefore, hdeparts⟩ := replayFrom_error_iff.mp hreplay
        have hnumber := (hwell.steps before.length step (by simp [hsteps])).action
        obtain ⟨index', path', hat⟩ := replayStep_located hdeparts
        rw [hlocation, hnumber] at hat
        have hsame : number = before.length + 1 :=
          Option.some.inj (congrArg ReplayLocation.step (Option.some.inj hat))
        have hread : ∀ s ∈ before, ∀ record ∈ s.records, record.Canonical := by
          intro s hs record hrecord
          refine hcanonical record ?_
          unfold TranscriptV1.records
          rw [hsteps]
          refine List.mem_cons_of_mem _ (List.mem_cons_of_mem _ (List.mem_append_left _ ?_))
          exact List.mem_flatMap.mpr ⟨s, List.mem_append_left _ hs, hrecord⟩
        obtain ⟨actions, hreads, hrun, -⟩ := recounts_of_replay hread hbefore
        refine ⟨before, step, after, initial, actions, mid.state, hsteps, hsame.symm, hinitial, hreads,
          hrun, fun action next hrecounts => ?_⟩
        -- a replay that goes on over the step meets the same variables in front of it
        obtain ⟨-, fuel', hon⟩ := replays_of_recounts (hrecounts.snoc hrun) hdigest
        obtain ⟨mid', hbefore', hstep'⟩ := replayFrom_snoc_ok_iff.mp hon
        have hmid := replayFrom_mono (Nat.le_max_left fuel fuel') hbefore
        rw [replayFrom_mono (Nat.le_max_right fuel fuel') hbefore'] at hmid
        obtain rfl := Except.ok.inj (Option.some.inj hmid)
        have hdeparts' := replayStep_mono (Nat.le_max_left fuel fuel') hdeparts
        rw [replayStep_mono (Nat.le_max_right fuel fuel') hstep'] at hdeparts'
        cases hdeparts'
      · exact absurd (failsOnly_verifyCompletion _ hlast) hstep

/-! A resignation with the winner exchanged, as somebody could write it who hashes the states anew. -/

def forgedText : String :=
  Resignation.stateText ("\x7b\"kind\":\"ended\",\"outcome\":\x7b" ++
    "\"winner\":\"one\",\"reason\":\"resignation\"\x7d\x7d")

def forgedHash : Vector UInt8 32 :=
  #v[4, 60, 32, 120, 145, 45, 193, 13, 6, 150, 151, 139, 89, 215, 188, 69, 76, 213, 144, 171, 9, 60,
    91, 71, 128, 114, 13, 155, 182, 71, 235, 198]

def forgedDigest : String :=
  "sha256:043c2078912dc10d0696978b59d7bc454cd590ab093c5b4780720d9bb647ebc6"

def forgedEnd : GameState := { Resignation.initial with status := .ended ⟨.one, .resignation⟩ }

def forged : KnownTexts where
  records := Resignation.known.records.take 3 ++
    [(.event ⟨3, 1, 0, .gameEnded .one .resignation⟩,
        "\x7b\"sequence\":3,\"record\":\"event\",\"step\":1,\"index\":0," ++
          "\"event\":\x7b\"kind\":\"game_ended\",\"winner\":\"one\"," ++
          "\"reason\":\"resignation\"\x7d\x7d"),
      (.stepCompleted ⟨4, 1, 1, ⟨forgedDigest⟩⟩,
        "\x7b\"sequence\":4,\"record\":\"step_completed\",\"step\":1,\"event_count\":1," ++
          "\"state_digest\":\"" ++ forgedDigest ++ "\"\x7d"),
      (.finalState ⟨5, StateProjectionV1.fromState forgedEnd, ⟨forgedDigest⟩⟩,
        "\x7b\"sequence\":5,\"record\":\"final_state\",\"final_state\":" ++ forgedText ++
          ",\"state_digest\":\"" ++ forgedDigest ++ "\"\x7d"),
      (.matchCompleted ⟨6, 1, 1, ⟨forgedDigest⟩, .one, .resignation⟩,
        "\x7b\"sequence\":6,\"record\":\"match_completed\",\"step_count\":1," ++
          "\"event_count\":1,\"state_digest\":\"" ++ forgedDigest ++
          "\",\"winner\":\"one\",\"reason\":\"resignation\"\x7d")]
  states := Resignation.known.states.take 1 ++
    [(StateProjectionV1.fromState forgedEnd, Resignation.hashedText forgedText)]
  digests := Resignation.known.digests.take 1 ++ [(Resignation.hashedText forgedText, forgedHash)]

-- one evaluation for the three facts: the long texts are put together once
theorem forged_texts : ∀ entry ∈ forged.records, 10 ∉ utf8 entry.2 ∧
    (utf8 entry.2).getLast? ≠ some 13 ∧ forged.serde.toVec entry.1 = .ok (utf8 entry.2) := by
  decide +kernel

theorem forged_lines : forged.Lines where
  nodup := by decide +kernel
  oneLine entry hentry := (forged_texts entry hentry).1
  noReturn entry hentry := (forged_texts entry hentry).2.1

theorem forged_canonical : ∀ entry ∈ forged.records, entry.1.Canonical := by
  simp only [forged, Resignation.known, List.take, List.cons_append, List.nil_append,
    List.forall_mem_cons, List.not_mem_nil, false_imp_iff, implies_true, and_true, RecordV1.Canonical]
  decide +kernel

/-- Where the verification of folded records fails. -/
def foundAt (serde : Serde) (records : List RecordV1) : Option (Option ReplayLocation) :=
  match foldRecords serde.compute (records.map (⟨0, ·⟩)) with
  | .error _ => none
  | .ok t =>
      match verifyParsedTranscript serde.compute 0 t noCards with
      | some (.error error) => some error.location
      | _ => none

theorem folded_of_foundAt {serde : Serde} {records : List RecordV1} {location : Option ReplayLocation}
    (h : foundAt serde records = some location) :
    ∃ t, foldRecords serde.compute (records.map (⟨0, ·⟩)) = .ok t := by
  unfold foundAt at h
  cases hfold : foldRecords serde.compute (records.map (⟨0, ·⟩)) with
  | error e =>
      rw [hfold] at h
      cases h
  | ok t => exact ⟨t, rfl⟩

/-- The exchanged winner is found in the event of the one step. -/
theorem forged_found : foundAt forged.serde (forged.records.map (·.1)) =
    some (some (.atStep 1 (some 0) "events.event")) := by
  decide +kernel

/-- The lines of the forged records parse to them. -/
theorem forged_parses : ∃ bytes t, TranscriptV1.parse forged.serde bytes = .ok t ∧
    t.records = forged.records.map (·.1) ∧
    foldRecords forged.serde.compute (t.records.map (⟨0, ·⟩)) = .ok t := by
  have hlines : List.Forall₂ forged.serde.ReadsBack (forged.records.map (·.1))
      (forged.records.map (utf8 ·.2)) := by
    rw [List.forall₂_map_left_iff, List.forall₂_map_right_iff, List.forall₂_same]
    exact fun entry hentry => KnownTexts.readsBack forged_lines _ _ (forged_texts entry hentry).2.2
  obtain ⟨ds, hds, hparse⟩ := parse_written hlines (by
    intro record hrecord
    obtain ⟨entry, hentry, rfl⟩ := List.mem_map.mp hrecord
    exact forged_canonical entry hentry)
  obtain ⟨t, hfold⟩ := folded_of_foundAt forged_found
  obtain ⟨hrecords, outcome, hwell⟩ := foldRecords_ok_iff.mp hfold
  have hsame : t.records = forged.records.map (·.1) := by
    rw [hrecords, List.map_map]
    simp [Function.comp_def]
  refine ⟨_, t, hparse.trans (foldRecords_ok_iff.mpr ⟨?_, outcome, hwell⟩), hsame, ?_⟩
  · rw [hsame, hds]
  · rw [hsame]
    exact hfold

/-- The exchanged winner is found in the event of the one step, which recounts no answer. -/
theorem departure_located_forged : ∃ bytes t error before step after initial state,
    TranscriptV1.parse forged.serde bytes = .ok t ∧
      verifyTranscript forged.serde 0 bytes noCards = some (.error error) ∧
      error.location = some (.atStep 1 (some 0) "events.event") ∧
      t.steps = before ++ step :: after ∧ before = [] ∧
      t.matchCreated.initialState.intoGameState noCards.coreCards = .ok initial ∧
      ∀ action next, ¬RecountsStep forged.serde.compute state action step next := by
  obtain ⟨bytes, t, hparse, hrecords, hfold⟩ := forged_parses
  have hcanonical : ∀ record ∈ t.records, record.Canonical := by
    rw [hrecords]
    intro record hrecord
    obtain ⟨entry, hentry, rfl⟩ := List.mem_map.mp hrecord
    exact forged_canonical entry hentry
  have hfound := forged_found
  rw [← hrecords] at hfound
  unfold foundAt at hfound
  simp only [hfold] at hfound
  split at hfound
  · rename_i error hverdict
    have hlocation := Option.some.inj hfound
    rw [← verifyTranscript_of_parse hparse] at hverdict
    obtain ⟨before, step, after, initial, actions, state, hsteps, hnumber, hinitial, -, -, hdeparts⟩ :=
      departure_located forged.serde bytes noCards t 0 error 1 (some 0) "events.event" hparse
        hcanonical hverdict hlocation
    have hfirst : before = [] := List.length_eq_zero_iff.mp (Nat.succ.inj hnumber)
    exact ⟨bytes, t, error, before, step, after, initial, state, hparse, hverdict, hlocation, hsteps,
      hfirst, hinitial, hdeparts⟩
  · cases hfound

/-- **A verdict is reached.** Over a library assembled from loaded Sets the verification of any bytes
comes to an answer, which more fuel does not change. -/
theorem verification_returns {newV5 : Vector UInt8 16 → String → String} (serde : Serde)
    (bytes : List UInt8) (sets : List LoadedSet) (library : CardLibrary)
    (hload : ∀ set ∈ sets, ∃ document, load newV5 document = .ok set)
    (hlibrary : CardLibrary.fromSets sets = .ok library) :
    ∃ fuel verdict, ∀ fuel' ≥ fuel, verifyTranscript serde fuel' bytes library = some verdict := by
  have hauthored : library.coreCards.Authored := by
    intro e he
    rw [(fromSets_ok hlibrary).2.2] at he
    obtain ⟨set, hset, hentity⟩ := List.mem_flatMap.mp he
    obtain ⟨document, hdocument⟩ := hload set hset
    exact authored_of_load hdocument e hentity
  cases hparse : TranscriptV1.parse serde bytes with
  | error e =>
      refine ⟨0, .error (.parse e), fun fuel _ => ?_⟩
      unfold verifyTranscript
      simp only [hparse]
  | ok t =>
      obtain ⟨fuel, verdict, hverdict⟩ : ∃ fuel verdict,
          verifyParsedTranscript serde.compute fuel t library = some verdict :=
        verifyParsedTranscript_returns t hauthored.triggersAdmitted
      refine ⟨fuel, verdict, fun fuel' hle => ?_⟩
      rw [verifyTranscript_of_parse hparse]
      exact verifyParsedTranscript_mono hle hverdict

/-- The library of one loaded Set gives a verdict on the transcript of a resignation. -/
theorem verification_returns_specimen : ∃ l library bytes t fuel verdict,
    load Specimen.newV5 (Specimen.document [Specimen.herald, Specimen.drifter]) = .ok l ∧
      CardLibrary.fromSets [l] = .ok library ∧
      TranscriptV1.parse Resignation.known.serde bytes = .ok t ∧
      ∀ fuel' ≥ fuel, verifyTranscript Resignation.known.serde fuel' bytes library = some verdict := by
  have hshelf : (Specimen.shelf [Specimen.herald, Specimen.drifter]).isSome = true := by decide +kernel
  obtain ⟨⟨l, library⟩, hshelf⟩ := Option.isSome_iff_exists.mp hshelf
  obtain ⟨hload, hlibrary⟩ := Specimen.library_of_shelf hshelf
  obtain ⟨t, digest, m, hwhole⟩ := resignation_whole
  obtain ⟨hparse, -⟩ := hwhole.parse (fun record bytes h _ =>
    KnownTexts.readsBack Resignation.known_lines record bytes h)
  have hloaded : ∀ set ∈ [l], ∃ document, load Specimen.newV5 document = .ok set := by
    intro set hset
    rw [List.mem_singleton.mp hset]
    exact ⟨_, hload⟩
  obtain ⟨fuel, verdict, hverdict⟩ := verification_returns Resignation.known.serde m.writer.flatten [l]
    library hloaded hlibrary
  exact ⟨l, library, _, t, fuel, verdict, hload, hlibrary, hparse, hverdict⟩

end Replay

end Summoners
