import Summoners.Proof.FailsClosed

/-! # Recorded matches parse back

A recording that is still active has written the records of a transcript that lacks its end:
`WrittenSoFar` says so in the terms of the lifecycle grammar. One submission extends it by a step or
completes the transcript, and the parser finds the completed one in the bytes. `Recounts` ties a
transcript's steps to the actions submitted and to the answers of `apply`.
-/

namespace Summoners
set_option autoImplicit false
open Checked

/-! ## What a transcript recounts -/

/-- The steps say what `apply` answered to the actions, one after the other from the initial state
on: the events and the digest of the resulting state, or the error and the digest of the same
state. -/
inductive Recounts (compute : StateProjectionV1 → Except CanonicalStateError StateDigestV1)
    (initial : GameState) : List GameAction → List TranscriptStepV1 → GameState → Prop
  | start : Recounts compute initial [] [] initial
  | accepted {actions : List GameAction} {steps : List TranscriptStepV1} {state : GameState}
      {action : GameAction} {outcome : ActionOutcome} {record : ActionRecordV1}
      {events : List EventRecordV1} {completion : StepCompletedV1}
      (h : Recounts compute initial actions steps state) (ha : Accepted state action outcome)
      (haction : record.action = ActionV1.fromCore action)
      (hevents : events.map (·.event) = outcome.events.map EventV1.fromCore)
      (hdigest : compute (StateProjectionV1.fromState outcome.state) = .ok completion.stateDigest) :
      Recounts compute initial (actions ++ [action])
        (steps ++ [⟨record, .accepted events completion⟩]) outcome.state
  | rejected {actions : List GameAction} {steps : List TranscriptStepV1} {state : GameState}
      {action : GameAction} {error : ActionError} {fuel : ℕ} {record : ActionRecordV1}
      {rejection : StepRejectedV1} (h : Recounts compute initial actions steps state)
      (ha : apply fuel state action = some (.error error))
      (haction : record.action = ActionV1.fromCore action)
      (herror : rejection.error = ErrorV1.ofCore error)
      (hdigest : compute (StateProjectionV1.fromState state) = .ok rejection.stateDigest) :
      Recounts compute initial (actions ++ [action])
        (steps ++ [⟨record, .rejected rejection⟩]) state

/-- A step for each action. -/
theorem Recounts.length
    {compute : StateProjectionV1 → Except CanonicalStateError StateDigestV1}
    {initial state : GameState} {actions : List GameAction} {steps : List TranscriptStepV1}
    (h : Recounts compute initial actions steps state) : steps.length = actions.length := by
  induction h with
  | start => rfl
  | accepted h ha haction hevents hdigest ih => rw [List.length_append, List.length_append, ih]; rfl
  | rejected h ha haction herror hdigest ih => rw [List.length_append, List.length_append, ih]; rfl

/-- Before the first action the match is in its initial state. -/
theorem Recounts.state_of_nil
    {compute : StateProjectionV1 → Except CanonicalStateError StateDigestV1}
    {initial state : GameState} {steps : List TranscriptStepV1}
    (h : Recounts compute initial [] steps state) : state = initial := by
  generalize hactions : ([] : List GameAction) = actions at h
  cases h with
  | start => rfl
  | accepted h ha haction hevents hdigest => simp at hactions
  | rejected h ha haction herror hdigest => simp at hactions

/-! ## A recording under way -/

section
variable {serde : Serde} {header : HeaderV1} {created : MatchCreatedV1} {initial : GameState}
  {actions : List GameAction} {steps : List TranscriptStepV1}
  {m m' : RecordedMatch (List (List UInt8))}

/-- What a recording that is still active has written and counted. -/
structure WrittenSoFar (serde : Serde) (header : HeaderV1) (created : MatchCreatedV1)
    (initial : GameState) (actions : List GameAction) (steps : List TranscriptStepV1)
    (m : RecordedMatch (List (List UInt8))) : Prop where
  active : m.lifecycle = .active
  opened : Opened serde.compute created steps
  quiet : ∀ step ∈ steps, announced step.events = []
  sequences : (readRecords header created steps).map recordSequence = List.range m.nextSequence
  canonical : ∀ record ∈ readRecords header created steps, record.Canonical
  written : (readRecords header created steps).mapM serde.encodeRecord = .ok m.writer
  nextStep : m.nextStep = steps.length + 1
  totalEvents : m.totalEvents = eventTotal steps
  playing : m.state.status = .playing
  digest : serde.compute (StateProjectionV1.fromState m.state) =
    .ok (lastDigest created.stateDigest steps)
  recounts : Recounts serde.compute initial actions steps m.state

/-- What a recording has written once it is complete. -/
structure WrittenWhole (serde : Serde) (header : HeaderV1) (created : MatchCreatedV1)
    (initial : GameState) (actions : List GameAction) (outcome : GameOutcome) (t : TranscriptV1)
    (m : RecordedMatch (List (List UInt8))) : Prop where
  header : t.header = header
  created : t.matchCreated = created
  wellFormed : t.WellFormed serde.compute (GameOutcomeV1.ofCore outcome)
  canonical : ∀ record ∈ t.records, record.Canonical
  written : t.records.mapM serde.encodeRecord = .ok m.writer
  ended : m.state.status = .ended outcome
  final : t.finalState.finalState = StateProjectionV1.fromState m.state
  recounts : Recounts serde.compute initial actions t.steps m.state

theorem mapM_append_ok {α β ε : Type} {f : α → Except ε β} {xs ys : List α} {as bs : List β}
    (hxs : xs.mapM f = .ok as) (hys : ys.mapM f = .ok bs) :
    (xs ++ ys).mapM f = .ok (as ++ bs) := by
  rw [List.mapM_append, hxs, hys]
  rfl

theorem range_append (n k : ℕ) : List.range n ++ List.range' n k = List.range (n + k) := by
  have h : List.range' 0 n ++ List.range' (0 + n) k = List.range' 0 (n + k) :=
    List.range'_append_1
  rw [Nat.zero_add, ← List.range_eq_range', ← List.range_eq_range'] at h
  exact h

namespace WrittenSoFar

/-- A digest already written is one that was computed. -/
theorem digest_canonical (h : WrittenSoFar serde header created initial actions steps m) :
    isDigestText (lastDigest created.stateDigest steps).text = true :=
  Serde.compute_canonical h.digest

/-- One more step that announces nothing keeps the recording active. -/
theorem snoc (h : WrittenSoFar serde header created initial actions steps m)
    {action : GameAction} {step : TranscriptStepV1} {chunks : List (List UInt8)} {state : GameState}
    (hstep : StepWellFormed (steps.length + 1) (lastDigest created.stateDigest steps) step)
    (hquiet : announced step.events = [])
    (hseq : step.records.map recordSequence = List.range' m.nextSequence step.records.length)
    (hcanonical : ∀ record ∈ step.records, record.Canonical)
    (hchunks : step.records.mapM serde.encodeRecord = .ok chunks)
    (hplaying : state.status = .playing)
    (hdigest : serde.compute (StateProjectionV1.fromState state) =
      .ok (step.completedDigest.getD (lastDigest created.stateDigest steps)))
    (hrecounts : Recounts serde.compute initial (actions ++ [action]) (steps ++ [step]) state) :
    WrittenSoFar serde header created initial (actions ++ [action]) (steps ++ [step])
      (m.afterStep step chunks state) where
  active := h.active
  opened := ⟨h.opened.playing, h.opened.digest, stepsWellFormed_snoc.mpr ⟨h.opened.steps, hstep⟩⟩
  quiet := by
    intro s hs
    rcases List.mem_append.mp hs with hs | hs
    · exact h.quiet s hs
    · rw [List.mem_singleton.mp hs]
      exact hquiet
  sequences := by
    rw [readRecords_snoc, List.map_append, h.sequences, hseq, range_append]
    rfl
  canonical := by
    intro record hmem
    rw [readRecords_snoc] at hmem
    exact (List.mem_append.mp hmem).elim (h.canonical record) (hcanonical record)
  written := by
    rw [readRecords_snoc]
    exact mapM_append_ok h.written hchunks
  nextStep := by
    show m.nextStep + 1 = _
    rw [h.nextStep, List.length_append]
    rfl
  totalEvents := by
    show m.totalEvents + _ = _
    rw [h.totalEvents, eventTotal_snoc]
  playing := hplaying
  digest := by
    rw [lastDigest_snoc]
    exact hdigest
  recounts := hrecounts

/-- A rejected action is one more step. -/
theorem rejected (h : WrittenSoFar serde header created initial actions steps m)
    {action : GameAction} {error : ActionError} {digest : StateDigestV1}
    {chunks : List (List UInt8)} {fuel : ℕ}
    (hinto : m.RejectedInto serde action error digest chunks m')
    (hanswer : apply fuel m.state action = some (.error error)) :
    ∃ step, WrittenSoFar serde header created initial (actions ++ [action]) (steps ++ [step]) m' := by
  obtain ⟨hcomputed, hwritten, rfl⟩ := hinto
  -- the digest of the unchanged state is the last one written
  obtain rfl : digest = lastDigest created.stateDigest steps := by
    rw [h.digest] at hcomputed
    exact (Except.ok.inj hcomputed).symm
  refine ⟨_, h.snoc ?_ rfl (sequences_rejectedStep ..) ?_ hwritten h.playing h.digest ?_⟩
  · rw [← h.nextStep]
    exact stepWellFormed_rejectedStep ..
  · exact canonical_rejectedStep _ _ _ _ _ h.digest_canonical
  · exact .rejected h.recounts hanswer rfl rfl h.digest

/-- An accepted action is one more step, or the last one. -/
theorem accepted (h : WrittenSoFar serde header created initial actions steps m)
    {action : GameAction} {outcome : ActionOutcome} {digest : StateDigestV1}
    {chunks : List (List UInt8)} {after : RecordedMatch (List (List UInt8))}
    (hinto : m.AcceptedInto serde action outcome digest chunks after m')
    (hanswer : Accepted m.state action outcome) :
    (∃ step, WrittenSoFar serde header created initial (actions ++ [action]) (steps ++ [step])
        m') ∨
      ∃ ended t, WrittenWhole serde header created initial (actions ++ [action]) ended t m' ∧
        m'.lifecycle = .stopped .matchCompleted := by
  obtain ⟨hcomputed, hwritten, rfl, hresult⟩ := hinto
  have hdigest := Serde.compute_canonical hcomputed
  have hwell := stepWellFormed_acceptedStep m.nextSequence m.nextStep action digest
    (lastDigest created.stateDigest steps) outcome.events
  have hnext : m.nextStep = steps.length + 1 := h.nextStep
  have hseq := sequences_acceptedStep m.nextSequence m.nextStep action digest outcome.events
  have hcanonical := canonical_acceptedStep m.nextSequence m.nextStep action digest outcome.events
    hdigest
  have hannounced := announced_acceptedStep m.nextSequence m.nextStep action digest outcome.events
  have hrecounts : Recounts serde.compute initial (actions ++ [action])
      (steps ++ [acceptedStep m.nextSequence m.nextStep action digest outcome.events])
      outcome.state :=
    .accepted h.recounts hanswer rfl (events_acceptedStep m.nextSequence m.nextStep action digest _)
      hcomputed
  rw [← length_records_acceptedStep m.nextSequence m.nextStep action digest] at hseq
  generalize hstep : acceptedStep m.nextSequence m.nextStep action digest outcome.events = step
    at hwell hseq hcanonical hannounced hrecounts hwritten hresult
  have hcompleted : step.completedDigest = some digest := by
    rw [← hstep]
    rfl
  rw [hnext] at hwell
  obtain ⟨hplaying, hevents, rfl⟩ | ⟨ended, last, hended, hevents, hlast, rfl⟩ := hresult
  · rw [hevents] at hannounced
    refine .inl ⟨step, h.snoc hwell hannounced hseq hcanonical hwritten hplaying ?_ hrecounts⟩
    rw [hcompleted]
    exact hcomputed
  · rw [hevents] at hannounced
    have hsteps : lastDigest created.stateDigest (steps ++ [step]) = digest := by
      rw [lastDigest_snoc, hcompleted]
      rfl
    let after := m.afterStep step chunks outcome.state
    let final : FinalStateV1 :=
      ⟨after.nextSequence, StateProjectionV1.fromState outcome.state, digest⟩
    let completed : MatchCompletedV1 :=
      ⟨after.nextSequence + 1, m.nextStep, after.totalEvents, digest,
        PlayerIdV1.ofCore ended.winner, LossReasonV1.ofCore ended.reason⟩
    have hrecords : (⟨header, created, steps ++ [step], final, completed⟩ : TranscriptV1).records =
        readRecords header created steps ++ step.records ++
          [.finalState final, .matchCompleted completed] := by
      simp [TranscriptV1.records, readRecords]
    refine .inr ⟨ended, ⟨header, created, steps ++ [step], final, completed⟩,
      ⟨rfl, rfl, ?_, ?_, ?_, hended, rfl, hrecounts⟩, rfl⟩
    · refine ⟨?_, h.opened.playing, h.opened.digest,
        stepsWellFormed_snoc.mpr ⟨h.opened.steps, hwell⟩, ⟨steps, step, rfl, hannounced, h.quiet⟩,
        ?_, hcomputed, hsteps.symm, ?_, ?_, rfl, rfl, rfl⟩
      · have hlength : (readRecords header created steps).length = m.nextSequence := by
          have hlen := congrArg List.length h.sequences
          rwa [List.length_map, List.length_range] at hlen
        rw [hrecords, List.map_append, List.map_append, h.sequences, hseq, range_append,
          List.length_append, List.length_append, hlength]
        exact range_append (m.nextSequence + step.records.length) 2
      · show GameStatusV1.fromCore outcome.state.status = _
        rw [hended]
        rfl
      · show m.nextStep = _
        rw [hnext, List.length_append]
        rfl
      · show m.totalEvents + step.events.length = _
        rw [h.totalEvents, eventTotal_snoc]
    · rw [hrecords]
      intro record hmem
      simp only [List.mem_append, List.mem_cons, List.not_mem_nil, or_false] at hmem
      obtain (hmem | hmem) | rfl | rfl := hmem
      · exact h.canonical record hmem
      · exact hcanonical record hmem
      · exact ⟨(StateProjectionV1.lossless outcome.state.cards).written _, hdigest⟩
      · exact hdigest
    · rw [hrecords]
      exact mapM_append_ok (mapM_append_ok h.written hwritten) hlast

end WrittenSoFar

/-! ## A whole recording -/

/-- A started recording has written the two records before the first step. -/
theorem writtenSoFar_start {metadata : List (String × JsonValue)}
    {requiredSets : List SetRequirementV1}
    (h : RecordedMatch.start serde .memory [] metadata requiredSets initial = .ok m) :
    ∃ digest, WrittenSoFar serde (HeaderV1.new metadata)
      (MatchCreatedV1.new requiredSets (StateProjectionV1.fromState initial) digest) initial [] []
      m := by
  simp only [RecordedMatch.start, prepareStart, bind_ok_iff, mapError_ok_iff, pure_ok_iff] at h
  obtain ⟨_, hstatus, ⟨headerRecord, createdRecord⟩, ⟨digest, hdigest, heq⟩, headerBytes, hheader,
    createdBytes, hcreated, h⟩ := h
  cases heq
  simp only [Sink.memory, List.nil_append] at h
  obtain ⟨-, -, -, -, -, -, rfl⟩ := h
  have hplaying : initial.status = .playing := by
    cases hs : initial.status with
    | playing => rfl
    | ended o =>
        simp [checkInitialStatus, hs] at hstatus
    | broken b => simp [checkInitialStatus, hs] at hstatus
  have hwire : (StateProjectionV1.fromState initial).status = .playing := by
    show GameStatusV1.fromCore initial.status = _
    rw [hplaying]
    rfl
  refine ⟨digest, rfl, ⟨hwire, hdigest, stepsWellFormed_nil⟩, by simp, rfl, ?_, ?_, rfl, rfl,
    hplaying, hdigest, .start⟩
  · intro record hmem
    simp only [readRecords, List.flatMap_nil, List.mem_cons, List.not_mem_nil, or_false] at hmem
    obtain rfl | rfl := hmem
    · exact ⟨rfl, rfl⟩
    · exact ⟨(StateProjectionV1.lossless initial.cards).written _, Serde.compute_canonical hdigest⟩
  · exact mapM_cons_ok_iff.mpr ⟨_, hheader, _, mapM_cons_ok_iff.mpr ⟨_, hcreated, _, rfl, rfl⟩, rfl⟩

/-- One successful submission. -/
theorem WrittenSoFar.submit (h : WrittenSoFar serde header created initial actions steps m)
    {action : GameAction} {r : RecordedStep}
    (hs : m.Submit serde .memory action (.ok r) m') :
    (∃ step, WrittenSoFar serde header created initial (actions ++ [action]) (steps ++ [step])
        m') ∨
      ∃ ended t, WrittenWhole serde header created initial (actions ++ [action]) ended t m' ∧
        m'.lifecycle = .stopped .matchCompleted := by
  obtain ⟨answer, hanswer, hsubmit⟩ := hs
  obtain ⟨fuel, hfuel⟩ := hanswer h.active
  obtain ⟨-, ⟨error, digest, chunks, rfl, hinto⟩ | ⟨outcome, digest, chunks, after, rfl, hinto⟩⟩ :=
    RecordedMatch.submitWith_ok hsubmit
  · exact .inl (h.rejected hinto hfuel)
  · exact h.accepted hinto ⟨fuel, hfuel⟩

/-- A submission that ends in an active recording was made to an active one, and succeeded. -/
theorem RecordedMatch.Submit.active {action : GameAction}
    {result : Except RecordingError RecordedStep} (hs : m.Submit serde .memory action result m')
    (hactive : m'.lifecycle = .active) : m.lifecycle = .active ∧ ∃ r, result = .ok r := by
  obtain ⟨answer, -, hsubmit⟩ := hs
  cases result with
  | error e =>
      exact absurd hactive ((RecordedMatch.stops_submitWith serde _ action answer).inactive _ _ _
        hsubmit)
  | ok r => exact ⟨(RecordedMatch.submitWith_ok hsubmit).1, r, rfl⟩

/-- A recording that is active after any submissions has written all their steps. -/
theorem WrittenSoFar.submits (h : WrittenSoFar serde header created initial [] [] m)
    {results : List (Except RecordingError RecordedStep)}
    (hs : RecordedMatch.Submits serde .memory m actions results m')
    (hactive : m'.lifecycle = .active) :
    ∃ steps, WrittenSoFar serde header created initial actions steps m' := by
  induction hs with
  | nil => exact ⟨[], h⟩
  | snoc hs hsubmit ih =>
      obtain ⟨hbefore, r, rfl⟩ := hsubmit.active hactive
      obtain ⟨steps, hsteps⟩ := ih hbefore
      obtain ⟨step, hstep⟩ | ⟨ended, t, -, hstopped⟩ := hsteps.submit hsubmit
      · exact ⟨_, hstep⟩
      · rw [hactive] at hstopped
        cases hstopped

/-! ## Parsing it -/

/-- Chunks are lines that read back. -/
theorem readsBack_of_mapM {records : List RecordV1} {chunks : List (List UInt8)}
    (h : records.mapM serde.encodeRecord = .ok chunks)
    (hserde : ∀ record bytes, serde.toVec record = .ok bytes → bytes ++ [10] ∈ chunks →
      serde.ReadsBack record bytes) :
    ∃ lines, chunks = lines.map (· ++ [10]) ∧ List.Forall₂ serde.ReadsBack records lines := by
  induction records generalizing chunks with
  | nil =>
      cases h
      exact ⟨[], rfl, .nil⟩
  | cons record records ih =>
      obtain ⟨chunk, hchunk, rest, hrest, rfl⟩ := mapM_cons_ok_iff.mp h
      simp only [Serde.encodeRecord, bind_ok_iff, pure_ok_iff] at hchunk
      obtain ⟨bytes, hbytes, rfl⟩ := hchunk
      obtain ⟨lines, rfl, hlines⟩ := ih hrest
        (fun r b hr hb => hserde r b hr (List.mem_cons_of_mem _ hb))
      exact ⟨bytes :: lines, rfl, .cons (hserde record bytes hbytes List.mem_cons_self) hlines⟩

/-- Only the last record of a transcript completes the match. -/
theorem TranscriptV1.prefix_incomplete {t t' : TranscriptV1} {k : ℕ} (hk : k < t.records.length)
    (h : t'.records = t.records.take k) : False := by
  have hlast : RecordV1.matchCompleted t'.matchCompleted ∈ t.records.take k := by
    rw [← h]
    simp [TranscriptV1.records]
  -- what is taken comes before the last record
  have hsplit : t.records = (RecordV1.header t.header :: .matchCreated t.matchCreated ::
      (t.steps.flatMap TranscriptStepV1.records ++ [.finalState t.finalState])) ++
        [.matchCompleted t.matchCompleted] := by
    simp [TranscriptV1.records]
  rw [hsplit, List.length_append, List.length_singleton] at hk
  rw [hsplit, List.take_append_of_le_length (by omega)] at hlast
  have hmem := List.mem_of_mem_take hlast
  simp only [List.mem_cons, List.mem_append, List.mem_flatMap, reduceCtorEq, false_or, or_false,
    List.not_mem_nil] at hmem
  obtain ⟨step, -, hrecord⟩ := hmem
  cases hresult : step.result <;> simp [TranscriptStepV1.records, hresult] at hrecord

/-- The bytes of a complete recording parse to its transcript, those of its first records do not
parse. -/
theorem WrittenWhole.parse {ended : GameOutcome} {t : TranscriptV1}
    (h : WrittenWhole serde header created initial actions ended t m)
    (hserde : ∀ record bytes, serde.toVec record = .ok bytes → bytes ++ [10] ∈ m.writer →
      serde.ReadsBack record bytes) :
    TranscriptV1.parse serde m.writer.flatten = .ok t ∧
      ∀ k < m.writer.length, ∃ e, TranscriptV1.parse serde (m.writer.take k).flatten = .error e := by
  obtain ⟨lines, hwriter, hlines⟩ := readsBack_of_mapM h.written hserde
  rw [hwriter]
  constructor
  · obtain ⟨ds, hrecords, hparse⟩ := parse_written hlines h.canonical
    rw [hparse, foldRecords_ok_iff]
    exact ⟨hrecords.symm, _, h.wellFormed⟩
  · intro k hk
    obtain ⟨ds, hrecords, hparse⟩ := parse_written (List.forall₂_take k hlines)
      (fun record hmem => h.canonical record (List.mem_of_mem_take hmem))
    rw [← List.map_take, hparse]
    cases hfold : foldRecords serde.compute ds with
    | error e => exact ⟨e, rfl⟩
    | ok t' =>
        obtain ⟨hread, -⟩ := foldRecords_ok_iff.mp hfold
        rw [hrecords] at hread
        rw [List.length_map, ← hlines.length_eq] at hk
        exact (TranscriptV1.prefix_incomplete hk hread).elim

end

/-- A completed recording parses to what was submitted and answered, and no shorter part of it
does. -/
theorem recorded_match_parses_back (serde : Serde) (metadata : List (String × JsonValue))
    (requiredSets : List SetRequirementV1) (initial : GameState)
    (m₀ m m' : RecordedMatch (List (List UInt8))) (actions : List GameAction)
    (results : List (Except RecordingError RecordedStep)) (last : GameAction) (step : RecordedStep)
    (hstart : RecordedMatch.start serde .memory [] metadata requiredSets initial = .ok m₀)
    (hsubmits : RecordedMatch.Submits serde .memory m₀ actions results m)
    (hlast : m.Submit serde .memory last (.ok step) m')
    (hcompleted : m'.lifecycle = .stopped .matchCompleted)
    (hserde : ∀ record bytes, serde.toVec record = .ok bytes → bytes ++ [10] ∈ m'.writer →
      serde.ReadsBack record bytes) :
    ∃ t outcome, TranscriptV1.parse serde m'.writer.flatten = .ok t ∧
      t.header = HeaderV1.new metadata ∧ t.matchCreated.requiredSets = requiredSets ∧
      t.matchCreated.initialState = StateProjectionV1.fromState initial ∧
      Recounts serde.compute initial (actions ++ [last]) t.steps m'.state ∧
      m'.state.status = .ended outcome ∧
      t.finalState.finalState = StateProjectionV1.fromState m'.state ∧
      t.matchCompleted.stepCount = actions.length + 1 ∧
      t.matchCompleted.eventCount = eventTotal t.steps ∧
      t.matchCompleted.winner = PlayerIdV1.ofCore outcome.winner ∧
      t.matchCompleted.reason = LossReasonV1.ofCore outcome.reason ∧
      ∀ k < m'.writer.length,
        ∃ e, TranscriptV1.parse serde (m'.writer.take k).flatten = .error e := by
  obtain ⟨digest, hopen⟩ := writtenSoFar_start hstart
  have hactive : m.lifecycle = .active := by
    obtain ⟨answer, -, hsubmit⟩ := hlast
    exact (RecordedMatch.submitWith_ok hsubmit).1
  obtain ⟨steps, hsteps⟩ := hopen.submits hsubmits hactive
  obtain ⟨s, hs⟩ | ⟨outcome, t, hwhole, -⟩ := hsteps.submit hlast
  · have hstill := hs.active
    rw [hcompleted] at hstill
    cases hstill
  · obtain ⟨hparse, hprefix⟩ := hwhole.parse hserde
    have hcreated := hwhole.created
    refine ⟨t, outcome, hparse, hwhole.header, by rw [hcreated]; rfl, by rw [hcreated]; rfl,
      hwhole.recounts, hwhole.ended, hwhole.final, ?_, hwhole.wellFormed.event_count,
      hwhole.wellFormed.winner, hwhole.wellFormed.reason, hprefix⟩
    rw [hwhole.wellFormed.step_count, hwhole.recounts.length, List.length_append]
    rfl

/-- A match of one resignation comes back with its one step. -/
theorem recorded_match_parses_back_resignation : ∃ m₀ m' t,
    RecordedMatch.start Resignation.known.serde .memory [] [] [] Resignation.initial = .ok m₀ ∧
      m₀.Submit Resignation.known.serde .memory (.resign .one)
        (.ok (.accepted [.gameEnded .two .resignation])) m' ∧
      TranscriptV1.parse Resignation.known.serde m'.writer.flatten = .ok t ∧
      Recounts Resignation.known.serde.compute Resignation.initial [.resign .one] t.steps m'.state ∧
      m'.state.status = .ended ⟨.two, .resignation⟩ ∧
      t.matchCompleted.stepCount = 1 := by
  obtain ⟨m₀, m', hstart, hinitial, hsubmit, hcompleted, hended⟩ := Resignation.recorded
  have hlines := KnownTexts.readsBack Resignation.known_lines
  generalize Resignation.known.serde = serde at *
  have hlast : m₀.Submit serde .memory (.resign .one) (.ok (.accepted [.gameEnded .two .resignation]))
      m' := ⟨_, fun _ => ⟨0, by rw [hinitial]; rfl⟩, hsubmit⟩
  obtain ⟨t, outcome, hparse, -, -, -, hrecounts, -, -, hcount, -⟩ :=
    recorded_match_parses_back serde [] [] Resignation.initial m₀ m₀ m' [] [] (.resign .one) _ hstart
      .nil hlast hcompleted (fun record bytes h _ => hlines record bytes h)
  exact ⟨m₀, m', t, hstart, hlast, hparse, hrecounts, hended, hcount⟩

end Summoners
