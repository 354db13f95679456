import Summoners.Checked.Codec
import Summoners.MatchLog.Record
import Summoners.Proof.Grammar
import Summoners.Proof.ReadBack

/-! # One submission

The records of one submission as a step of a transcript, what a method of a recording does when it
succeeds, over a sink that never fails, and that nothing is recorded any more after one that fails.
`submitWith_ok` is what the results about whole recordings go by.
-/

namespace Summoners
set_option autoImplicit false
open Checked

/-! ## One recorded step -/

theorem map_mapIdx {α β γ : Type} (f : ℕ → α → β) (g : β → γ) (l : List α) :
    (l.mapIdx f).map g = l.mapIdx (fun i a => g (f i a)) := by
  apply List.ext_getElem?
  intro i
  simp [Function.comp_def]

section
variable (sequence step : ℕ) (action : GameAction) (digest : StateDigestV1)

/-- The records of an accepted action, as a step. -/
def acceptedStep (events : List GameEvent) : TranscriptStepV1 :=
  ⟨⟨sequence, step, ActionV1.fromCore action⟩,
    .accepted (events.mapIdx (fun i event => prepareEvent (sequence + 1) step i event))
      ⟨sequence + 1 + events.length, step, events.length, digest⟩⟩

/-- The records of a rejected action, as a step. -/
def rejectedStep (error : ActionError) : TranscriptStepV1 :=
  ⟨⟨sequence, step, ActionV1.fromCore action⟩,
    .rejected ⟨sequence + 1, step, ErrorV1.ofCore error, digest⟩⟩

theorem records_acceptedStep (events : List GameEvent) :
    (acceptedStep sequence step action digest events).records =
      prepareAction sequence step action ::
        prepareAcceptedStep (sequence + 1) step events digest := by
  simp only [TranscriptStepV1.records, acceptedStep, prepareAction, prepareAcceptedStep, map_mapIdx]

theorem records_rejectedStep (error : ActionError) :
    (rejectedStep sequence step action digest error).records =
      [prepareAction sequence step action, prepareRejectedStep (sequence + 1) step error digest] :=
  rfl

@[simp] theorem length_records_acceptedStep (events : List GameEvent) :
    (acceptedStep sequence step action digest events).records.length = events.length + 2 := by
  simp [records_acceptedStep, prepareAcceptedStep]

@[simp] theorem length_events_acceptedStep (events : List GameEvent) :
    (acceptedStep sequence step action digest events).events.length = events.length := by
  simp [TranscriptStepV1.events, acceptedStep]

/-- Event records carry the numbers that follow the action's. -/
theorem sequences_acceptedStep (events : List GameEvent) :
    (acceptedStep sequence step action digest events).records.map recordSequence =
      List.range' sequence (events.length + 2) := by
  rw [records_acceptedStep]
  apply List.ext_getElem
  · simp [prepareAcceptedStep]
  · intro i hi hi'
    simp only [List.length_range'] at hi'
    rw [List.getElem_map, List.getElem_range']
    obtain _ | i := i
    · rfl
    · simp only [List.getElem_cons_succ, prepareAcceptedStep, List.getElem_append, List.length_mapIdx,
        List.getElem_mapIdx]
      split_ifs with hlt
      · simp only [recordSequence, prepareEvent]
        omega
      · simp only [List.getElem_singleton, recordSequence]
        omega

theorem sequences_rejectedStep (error : ActionError) :
    (rejectedStep sequence step action digest error).records.map recordSequence =
      List.range' sequence 2 :=
  rfl

/-- What is written for an action is canonical. -/
theorem canonical_acceptedStep (events : List GameEvent) (h : isDigestText digest.text = true) :
    ∀ record ∈ (acceptedStep sequence step action digest events).records, record.Canonical := by
  rw [records_acceptedStep]
  intro record hmem
  simp only [prepareAcceptedStep, List.mem_cons, List.mem_append, List.mem_mapIdx,
    List.not_mem_nil, or_false] at hmem
  obtain rfl | ⟨i, hi, rfl⟩ | rfl := hmem
  · exact ActionV1.lossless.written action
  · exact EventV1.lossless.written _
  · exact h

theorem canonical_rejectedStep (error : ActionError) (h : isDigestText digest.text = true) :
    ∀ record ∈ (rejectedStep sequence step action digest error).records, record.Canonical := by
  rw [records_rejectedStep]
  intro record hmem
  simp only [List.mem_cons, List.not_mem_nil, or_false] at hmem
  obtain rfl | rfl := hmem
  · exact ActionV1.lossless.written action
  · exact h

theorem stepWellFormed_acceptedStep (before : StateDigestV1) (events : List GameEvent) :
    StepWellFormed step before (acceptedStep sequence step action digest events) where
  action := rfl
  result := by
    refine ⟨fun i e he => ?_, rfl, by rw [List.length_mapIdx]⟩
    rw [List.getElem?_mapIdx, Option.map_eq_some_iff] at he
    obtain ⟨event, -, rfl⟩ := he
    exact ⟨rfl, rfl⟩

theorem stepWellFormed_rejectedStep (error : ActionError) :
    StepWellFormed step digest (rejectedStep sequence step action digest error) :=
  ⟨rfl, rfl, rfl⟩

theorem events_acceptedStep (events : List GameEvent) :
    (acceptedStep sequence step action digest events).events.map (·.event) =
      events.map EventV1.fromCore := by
  show (events.mapIdx (fun i event => prepareEvent (sequence + 1) step i event)).map (·.event) = _
  rw [map_mapIdx]
  apply List.ext_getElem?
  intro i
  simp [prepareEvent]

/-- The outcomes announced on the wire are those of the engine's events. -/
theorem announced_acceptedStep (events : List GameEvent) :
    announced (acceptedStep sequence step action digest events).events =
      (endedEvents events).map GameOutcomeV1.ofCore := by
  have hwire : announced (acceptedStep sequence step action digest events).events =
      (events.map EventV1.fromCore).filterMap EventV1.outcome := by
    rw [← events_acceptedStep sequence step action digest, List.filterMap_map]
    rfl
  rw [hwire, endedEvents, List.filterMap_map, List.map_filterMap]
  refine List.filterMap_congr (fun event _ => ?_)
  cases event <;> rfl

end

/-! ## Methods of a recording -/

section
variable {σ α β : Type} {m m' : RecordedMatch σ}

theorem Recording.bind_ok_iff {x : Recording σ α} {f : α → Recording σ β} {b : β} :
    (x >>= f) m = (.ok b, m') ↔ ∃ a m₁, x m = (.ok a, m₁) ∧ f a m₁ = (.ok b, m') := by
  show Recording.bind x f m = _ ↔ _
  unfold Recording.bind
  split
  · rename_i a m₁ hx
    simp [hx]
  · rename_i e m₁ hx
    simp [hx]

theorem Recording.pure_ok_iff {a b : α} :
    (pure a : Recording σ α) m = (.ok b, m') ↔ a = b ∧ m = m' := by
  show (Except.ok a, m) = (Except.ok b, m') ↔ _
  simp

/-- After a failure nothing is recorded any more. -/
structure Recording.Stops (x : Recording σ α) : Prop where
  inactive : ∀ m e m', x m = (.error e, m') → m'.lifecycle ≠ .active

theorem Recording.Stops.bind {x : Recording σ α} {f : α → Recording σ β} (hx : x.Stops)
    (hf : ∀ a, (f a).Stops) : (x >>= f).Stops := by
  refine ⟨fun m e m' h => ?_⟩
  change Recording.bind x f m = _ at h
  unfold Recording.bind at h
  split at h
  · exact (hf _).inactive _ _ _ h
  · rename_i e' m₁ heq
    cases h
    exact hx.inactive _ _ _ heq

theorem Recording.Stops.pure (a : α) : (pure a : Recording σ α).Stops := by
  refine ⟨fun m e m' h => ?_⟩
  cases h

end

namespace RecordedMatch

section
variable {σ : Type} (serde : Serde) (sink : Sink σ)

theorem stops_stop {α : Type} (error : RecordingError) :
    (stop error : Recording σ α).Stops := by
  refine ⟨fun m e m' h => ?_⟩
  cases h
  simp

theorem stops_stopWith {α : Type} (reason : RecordingStopped) :
    (stopWith reason : Recording σ α).Stops := by
  refine ⟨fun m e m' h => ?_⟩
  cases h
  simp

theorem stops_this : (this : Recording σ (RecordedMatch σ)).Stops := by
  refine ⟨fun m e m' h => ?_⟩
  cases h

theorem stops_update (f : RecordedMatch σ → RecordedMatch σ) : (update f).Stops := by
  refine ⟨fun m e m' h => ?_⟩
  cases h

theorem stops_ensureActive : (ensureActive : Recording σ Unit).Stops := by
  refine ⟨fun m e m' h => ?_⟩
  unfold ensureActive at h
  split at h
  · cases h
  · rename_i reason hl
    cases h
    rw [hl]
    simp

theorem stops_computeDigest (projection : StateProjectionV1) :
    (computeDigest serde projection : Recording σ StateDigestV1).Stops := by
  unfold computeDigest
  split
  · exact .pure _
  · exact stops_stop _

theorem stops_append (record : RecordV1) : (append serde sink record).Stops := by
  unfold append
  split
  · exact stops_stop _
  · refine .bind ?_ (fun _ => stops_update _)
    refine ⟨fun m e m' h => ?_⟩
    unfold writeRecord at h
    split at h
    · cases h
    · exact (stops_stop _).inactive _ _ _ h

theorem stops_appendRecords (records : List RecordV1) :
    (appendRecords serde sink records).Stops := by
  induction records with
  | nil => exact .pure ()
  | cons record records ih => exact .bind (stops_append serde sink record) (fun _ => ih)

theorem stops_flush : (flush sink).Stops := by
  refine ⟨fun m e m' h => ?_⟩
  unfold flush at h
  split at h
  · cases h
  · exact (stops_stop _).inactive _ _ _ h

theorem stops_recordAcceptedStep (step : ℕ) (outcome : ActionOutcome) :
    (recordAcceptedStep serde sink step outcome).Stops := by
  unfold recordAcceptedStep
  refine .bind (stops_update _) fun _ => .bind (stops_computeDigest serde _) fun digest =>
    .bind stops_this fun m => .bind (stops_appendRecords serde sink _) fun _ =>
      .bind (stops_flush sink) fun _ => .bind (stops_update _) fun _ => ?_
  split
  · exact stops_stopWith _
  · refine .bind ?_ (fun _ => .pure _)
    unfold completeEndedMatch
    exact .bind stops_this fun m => .bind (stops_appendRecords serde sink _) fun _ =>
      .bind (stops_flush sink) fun _ => stops_update _
  · split
    · exact stops_stopWith _
    · exact .pure _

theorem stops_recordRejectedStep (step : ℕ) (error : ActionError) :
    (recordRejectedStep serde sink step error).Stops := by
  unfold recordRejectedStep
  exact .bind stops_this fun m => .bind (stops_computeDigest serde _) fun digest =>
    .bind (stops_append serde sink _) fun _ => .bind (stops_flush sink) fun _ => .pure _

/-- A submission that fails stops the recording. -/
theorem stops_submitWith (action : GameAction) (answer : Except ActionError ActionOutcome) :
    (submitWith serde sink action answer).Stops := by
  unfold submitWith
  refine .bind stops_ensureActive fun _ => .bind stops_this fun m =>
    .bind (stops_append serde sink _) fun _ => .bind (stops_update _) fun _ => ?_
  cases answer with
  | ok outcome => exact stops_recordAcceptedStep serde sink _ outcome
  | error error => exact stops_recordRejectedStep serde sink _ error

end

/-! ## What a successful method writes -/

section
variable {σ : Type} {serde : Serde} {m m' : RecordedMatch σ} {u : Unit}

theorem this_ok_iff {a : RecordedMatch σ} :
    this m = (.ok a, m') ↔ a = m ∧ m' = m := by
  show (Except.ok m, m) = (Except.ok a, m') ↔ _
  simp [eq_comm]

theorem update_ok_iff {f : RecordedMatch σ → RecordedMatch σ} :
    update f m = (.ok u, m') ↔ m' = f m := by
  simp [update, eq_comm]

theorem ensureActive_ok_iff : ensureActive m = (.ok u, m') ↔ m.lifecycle = .active ∧ m' = m := by
  unfold ensureActive
  cases h : m.lifecycle with
  | active => simp [eq_comm]
  | stopped reason => simp

theorem computeDigest_ok_iff {projection : StateProjectionV1} {digest : StateDigestV1} :
    computeDigest serde projection m = (.ok digest, m') ↔
      serde.compute projection = .ok digest ∧ m' = m := by
  unfold computeDigest
  cases h : serde.compute projection with
  | ok d =>
      show (Except.ok d, m) = (Except.ok digest, m') ↔ _
      simp [eq_comm (b := m)]
  | error e => simp [stop]

end

section
variable {serde : Serde} {m m' : RecordedMatch (List (List UInt8))} {u : Unit}

theorem append_ok_iff {record : RecordV1} : append serde .memory record m = (.ok u, m') ↔
    ∃ bytes, serde.encodeRecord record = .ok bytes ∧
      m' = { m with writer := m.writer ++ [bytes], nextSequence := m.nextSequence + 1 } := by
  unfold append
  cases h : serde.encodeRecord record with
  | error e => simp [stop]
  | ok bytes =>
      simp only [Recording.bind_ok_iff, update_ok_iff]
      simp [writeRecord, Sink.memory]

theorem appendRecords_ok {records : List RecordV1}
    (h : appendRecords serde .memory records m = (.ok u, m')) :
    ∃ chunks, records.mapM serde.encodeRecord = .ok chunks ∧
      m' = { m with
        writer := m.writer ++ chunks
        nextSequence := m.nextSequence + records.length } := by
  induction records generalizing m with
  | nil =>
      cases h
      exact ⟨[], rfl, by simp⟩
  | cons record records ih =>
      simp only [appendRecords, Recording.bind_ok_iff, append_ok_iff] at h
      obtain ⟨-, m₁, ⟨bytes, hbytes, rfl⟩, hrest⟩ := h
      obtain ⟨chunks, hchunks, rfl⟩ := ih hrest
      refine ⟨bytes :: chunks, mapM_cons_ok_iff.mpr ⟨bytes, hbytes, chunks, hchunks, rfl⟩, ?_⟩
      simp only [List.append_assoc, List.singleton_append, List.length_cons, mk.injEq, and_true,
        true_and]
      omega

theorem flush_ok_iff : flush .memory m = (.ok u, m') ↔ m' = m := by
  show (Except.ok (), m) = (Except.ok u, m') ↔ _
  simp [eq_comm]

/-- What the two GameEnded checks let through. -/
theorem checkTerminalEvents_ok {status : GameStatus} {events : List GameEvent}
    {ended : Option GameOutcome} (h : checkTerminalEvents status events = .ok ended) :
    (∃ b, status = .broken b ∧ ended = none) ∨
      (status = .playing ∧ endedEvents events = [] ∧ ended = none) ∨
      ∃ outcome, status = .ended outcome ∧ endedEvents events = [outcome] ∧
        ended = some outcome := by
  unfold checkTerminalEvents at h
  split at h
  · cases h
    exact .inl ⟨_, rfl, rfl⟩
  · cases h
  · rename_i hevents
    cases h
    exact .inr (.inl ⟨rfl, hevents, rfl⟩)
  · cases h
  · cases h
  · rename_i expected recorded hevents
    rw [guard_ok_iff] at h
    obtain ⟨rfl, heq⟩ := h
    cases heq
    exact .inr (.inr ⟨_, rfl, hevents, rfl⟩)

/-- The recording after the records of an accepted step. -/
def afterAccepted (m : RecordedMatch (List (List UInt8))) (outcome : ActionOutcome)
    (chunks : List (List UInt8)) : RecordedMatch (List (List UInt8)) :=
  { m with
    writer := m.writer ++ chunks
    state := outcome.state
    nextSequence := m.nextSequence + (outcome.events.length + 1)
    totalEvents := m.totalEvents + outcome.events.length }

theorem recordAcceptedStep_ok {step : ℕ} {outcome : ActionOutcome} {r : RecordedStep}
    (h : recordAcceptedStep serde .memory step outcome m = (.ok r, m')) :
    ∃ digest chunks,
      serde.compute (StateProjectionV1.fromState outcome.state) = .ok digest ∧
      (prepareAcceptedStep m.nextSequence step outcome.events digest).mapM serde.encodeRecord =
        .ok chunks ∧
      ((outcome.state.status = .playing ∧ endedEvents outcome.events = [] ∧
          m' = m.afterAccepted outcome chunks) ∨
        ∃ ended last, outcome.state.status = .ended ended ∧
          endedEvents outcome.events = [ended] ∧
          (prepareCompletion ⟨(m.afterAccepted outcome chunks).nextSequence, m.nextStep - 1,
            (m.afterAccepted outcome chunks).totalEvents⟩ ended
            (StateProjectionV1.fromState outcome.state) digest).mapM serde.encodeRecord =
              .ok last ∧
          m' = { m.afterAccepted outcome chunks with
            writer := (m.afterAccepted outcome chunks).writer ++ last
            nextSequence := (m.afterAccepted outcome chunks).nextSequence + 2
            lifecycle := .stopped .matchCompleted }) := by
  simp only [recordAcceptedStep, Recording.bind_ok_iff, update_ok_iff, computeDigest_ok_iff,
    this_ok_iff, flush_ok_iff] at h
  obtain ⟨-, _, rfl, digest, _, ⟨hdigest, rfl⟩, _, _, ⟨rfl, rfl⟩, _, _, happend, -, _, rfl, -, _,
    rfl, h⟩ := h
  obtain ⟨chunks, hchunks, rfl⟩ := appendRecords_ok happend
  have hlength : (prepareAcceptedStep m.nextSequence step outcome.events digest).length =
      outcome.events.length + 1 := by
    simp [prepareAcceptedStep]
  refine ⟨digest, chunks, hdigest, hchunks, ?_⟩
  cases hcheck : checkTerminalEvents outcome.state.status outcome.events with
  | error e =>
      rw [hcheck] at h
      cases h
  | ok ended =>
      rw [hcheck] at h
      obtain ⟨b, hstatus, rfl⟩ | ⟨hstatus, hevents, rfl⟩ | ⟨o, hstatus, hevents, rfl⟩ :=
        checkTerminalEvents_ok hcheck
      · simp only [hstatus] at h
        cases h
      · simp only [hstatus] at h
        obtain ⟨-, rfl⟩ := h
        refine .inl ⟨hstatus, hevents, ?_⟩
        simp only [afterAccepted, hlength]
      · simp only [completeEndedMatch, Recording.bind_ok_iff, update_ok_iff, this_ok_iff,
          flush_ok_iff] at h
        obtain ⟨-, _, ⟨_, _, ⟨rfl, rfl⟩, _, _, hlast, -, _, rfl, rfl⟩, -, rfl⟩ := h
        obtain ⟨last, hencoded, rfl⟩ := appendRecords_ok hlast
        simp only [hlength] at hencoded
        refine .inr ⟨o, last, hstatus, hevents, hencoded, ?_⟩
        simp only [afterAccepted, hlength, prepareCompletion, List.length_cons, List.length_nil]

theorem recordRejectedStep_ok {step : ℕ} {error : ActionError} {r : RecordedStep}
    (h : recordRejectedStep serde .memory step error m = (.ok r, m')) :
    ∃ digest bytes, serde.compute (StateProjectionV1.fromState m.state) = .ok digest ∧
      serde.encodeRecord (prepareRejectedStep m.nextSequence step error digest) = .ok bytes ∧
      m' = { m with writer := m.writer ++ [bytes], nextSequence := m.nextSequence + 1 } := by
  simp only [recordRejectedStep, Recording.bind_ok_iff, computeDigest_ok_iff, this_ok_iff,
    flush_ok_iff, append_ok_iff] at h
  obtain ⟨_, _, ⟨rfl, rfl⟩, digest, _, ⟨hdigest, rfl⟩, -, _, ⟨bytes, hbytes, rfl⟩, -, _, rfl, -,
    rfl⟩ := h
  exact ⟨digest, bytes, hdigest, hbytes, rfl⟩

/-- The recording after the records of a step. -/
def afterStep (m : RecordedMatch (List (List UInt8))) (step : TranscriptStepV1)
    (chunks : List (List UInt8)) (state : GameState) : RecordedMatch (List (List UInt8)) :=
  { m with
    writer := m.writer ++ chunks
    state := state
    nextSequence := m.nextSequence + step.records.length
    nextStep := m.nextStep + 1
    totalEvents := m.totalEvents + step.events.length }

/-- A rejected action, recorded. -/
structure RejectedInto (serde : Serde) (m : RecordedMatch (List (List UInt8))) (action : GameAction)
    (error : ActionError) (digest : StateDigestV1) (chunks : List (List UInt8))
    (m' : RecordedMatch (List (List UInt8))) : Prop where
  computed : serde.compute (StateProjectionV1.fromState m.state) = .ok digest
  written : (rejectedStep m.nextSequence m.nextStep action digest error).records.mapM
    serde.encodeRecord = .ok chunks
  result : m' =
    m.afterStep (rejectedStep m.nextSequence m.nextStep action digest error) chunks m.state

/-- An accepted action, recorded: the match goes on or is completed. -/
structure AcceptedInto (serde : Serde) (m : RecordedMatch (List (List UInt8))) (action : GameAction)
    (outcome : ActionOutcome) (digest : StateDigestV1) (chunks : List (List UInt8))
    (after m' : RecordedMatch (List (List UInt8))) : Prop where
  computed : serde.compute (StateProjectionV1.fromState outcome.state) = .ok digest
  written : (acceptedStep m.nextSequence m.nextStep action digest outcome.events).records.mapM
    serde.encodeRecord = .ok chunks
  stepped : after = m.afterStep
    (acceptedStep m.nextSequence m.nextStep action digest outcome.events) chunks outcome.state
  result : (outcome.state.status = .playing ∧ endedEvents outcome.events = [] ∧ m' = after) ∨
    ∃ ended last, outcome.state.status = .ended ended ∧ endedEvents outcome.events = [ended] ∧
      (prepareCompletion ⟨after.nextSequence, m.nextStep, after.totalEvents⟩ ended
        (StateProjectionV1.fromState outcome.state) digest).mapM serde.encodeRecord = .ok last ∧
      m' = { after with
        writer := after.writer ++ last
        nextSequence := after.nextSequence + 2
        lifecycle := .stopped .matchCompleted }

/-- What a successful submission does, case by case on the answer of `apply`. -/
theorem submitWith_ok {action : GameAction} {answer : Except ActionError ActionOutcome}
    {r : RecordedStep} (h : submitWith serde .memory action answer m = (.ok r, m')) :
    m.lifecycle = .active ∧
      ((∃ error digest chunks, answer = .error error ∧
          RejectedInto serde m action error digest chunks m') ∨
        ∃ outcome digest chunks after, answer = .ok outcome ∧
          AcceptedInto serde m action outcome digest chunks after m') := by
  simp only [submitWith, Recording.bind_ok_iff, ensureActive_ok_iff, this_ok_iff, append_ok_iff,
    update_ok_iff] at h
  obtain ⟨-, m, ⟨hactive, rfl⟩, _, m, ⟨rfl, rfl⟩, -, _, ⟨bytes, hbytes, rfl⟩, -, _, rfl, h⟩ := h
  refine ⟨hactive, ?_⟩
  cases answer with
  | error error =>
      obtain ⟨digest, rejection, hdigest, hrejection, rfl⟩ := recordRejectedStep_ok h
      refine .inl ⟨error, digest, [bytes, rejection], rfl, hdigest, ?_, ?_⟩
      · rw [records_rejectedStep]
        exact mapM_cons_ok_iff.mpr ⟨_, hbytes, _, mapM_cons_ok_iff.mpr ⟨_, hrejection, _, rfl, rfl⟩,
          rfl⟩
      · simp [afterStep, rejectedStep, TranscriptStepV1.records, TranscriptStepV1.events]
  | ok outcome =>
      obtain ⟨digest, chunks, hdigest, hchunks, hresult⟩ := recordAcceptedStep_ok h
      have hafter : (⟨m.writer ++ [bytes], m.state, m.nextSequence + 1, m.nextStep + 1,
          m.totalEvents, m.lifecycle⟩ : RecordedMatch _).afterAccepted outcome chunks =
          m.afterStep (acceptedStep m.nextSequence m.nextStep action digest outcome.events)
            (bytes :: chunks) outcome.state := by
        simp only [afterAccepted, afterStep, length_records_acceptedStep,
          length_events_acceptedStep, List.append_assoc, List.singleton_append, mk.injEq, and_true,
          true_and]
        omega
      refine .inr ⟨outcome, digest, bytes :: chunks, _, rfl, hdigest, ?_, rfl, ?_⟩
      · rw [records_acceptedStep]
        exact mapM_cons_ok_iff.mpr ⟨_, hbytes, _, hchunks, rfl⟩
      · rw [hafter] at hresult
        obtain ⟨hplaying, hevents, rfl⟩ | ⟨ended, last, hended, hevents, hlast, rfl⟩ := hresult
        · exact .inl ⟨hplaying, hevents, rfl⟩
        · exact .inr ⟨ended, last, hended, hevents, hlast, rfl⟩

end

end RecordedMatch

end Summoners
