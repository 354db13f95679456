import Summoners.Proof.FailsClosed
import Summoners.Proof.SameRecords

/-! # Verified transcripts are recorded ones

A recorder whose serializer does not fail takes every answer that a verified transcript recounts, and
writes the transcript's own records; and a transcript that a recorder has written is verified.
-/

namespace Summoners
set_option autoImplicit false
open Checked

/-! ## A recorder that does not fail -/

/-- `serde_json` writes every record. -/
def Serde.Writes (serde : Serde) : Prop := ∀ record, ∃ bytes, serde.toVec record = .ok bytes

namespace RecordedMatch

section
variable {serde : Serde} {m : RecordedMatch (List (List UInt8))}

theorem encodes_of_writes (hwrites : serde.Writes) (records : List RecordV1) :
    ∃ chunks, records.mapM serde.encodeRecord = .ok chunks := by
  induction records with
  | nil => exact ⟨[], rfl⟩
  | cons record records ih =>
      obtain ⟨bytes, hbytes⟩ := hwrites record
      obtain ⟨chunks, hchunks⟩ := ih
      refine ⟨(bytes ++ [10]) :: chunks, mapM_cons_ok_iff.mpr ⟨_, ?_, chunks, hchunks, rfl⟩⟩
      unfold Serde.encodeRecord
      rw [hbytes]
      rfl

theorem appendRecords_of_encodes {records : List RecordV1} {chunks : List (List UInt8)}
    (h : records.mapM serde.encodeRecord = .ok chunks) :
    ∃ m', appendRecords serde .memory records m = (.ok (), m') := by
  induction records generalizing m chunks with
  | nil => exact ⟨m, rfl⟩
  | cons record records ih =>
      obtain ⟨bytes, hbytes, rest, hrest, -⟩ := mapM_cons_ok_iff.mp h
      obtain ⟨m', hm'⟩ := ih (m := { m with
        writer := m.writer ++ [bytes], nextSequence := m.nextSequence + 1 }) hrest
      exact ⟨m', Recording.bind_ok_iff.mpr ⟨(), _, append_ok_iff.mpr ⟨bytes, hbytes, rfl⟩, hm'⟩⟩

theorem append_of_writes (hwrites : serde.Writes) (record : RecordV1) :
    ∃ m', append serde .memory record m = (.ok (), m') ∧ m'.state = m.state ∧
      m'.lifecycle = m.lifecycle := by
  obtain ⟨bytes, hbytes⟩ := hwrites record
  refine ⟨_, append_ok_iff.mpr ⟨bytes ++ [10], ?_, rfl⟩, rfl, rfl⟩
  unfold Serde.encodeRecord
  rw [hbytes]
  rfl

/-- A refused action is recorded. -/
theorem submitWith_refused (action : GameAction) (error : ActionError) (hwrites : serde.Writes)
    (hactive : m.lifecycle = .active) {digest : StateDigestV1}
    (hdigest : serde.compute (StateProjectionV1.fromState m.state) = .ok digest) :
    ∃ m', submitWith serde .memory action (.error error) m = (.ok (.rejected error), m') := by
  rw [submitWith_active hactive]
  obtain ⟨m₁, happend, hstate, -⟩ := append_of_writes (m := m) hwrites
    (prepareAction m.nextSequence m.nextStep action)
  obtain ⟨m₂, hrejection, -⟩ := append_of_writes (m := { m₁ with nextStep := m₁.nextStep + 1 }) hwrites
    (prepareRejectedStep m₁.nextSequence m.nextStep error digest)
  refine ⟨m₂, Recording.bind_ok_iff.mpr ⟨(), m₁, happend,
    Recording.bind_ok_iff.mpr ⟨(), _, update_ok_iff.mpr rfl, ?_⟩⟩⟩
  simp only [recordAnswer, recordRejectedStep, Recording.bind_ok_iff, this_ok_iff,
    computeDigest_ok_iff, flush_ok_iff]
  refine ⟨_, _, ⟨rfl, rfl⟩, digest, _, ⟨by rw [← hdigest, ← hstate], rfl⟩, (), m₂, hrejection, (),
    _, rfl, rfl⟩

/-- What the two GameEnded checks ask of an outcome. -/
def Terminates (outcome : ActionOutcome) : Prop :=
  (outcome.state.status = .playing ∧ endedEvents outcome.events = []) ∨
    ∃ ended, outcome.state.status = .ended ended ∧ endedEvents outcome.events = [ended]

/-- The end of `record_accepted_step`, behind the records of the step. -/
def concludeStep (serde : Serde) (outcome : ActionOutcome) (digest : StateDigestV1) :
    Recording (List (List UInt8)) RecordedStep :=
  match checkTerminalEvents outcome.state.status outcome.events with
  | .error error => stopWith (.invalidTerminalEvents error)
  | .ok (some ended) => do
      completeEndedMatch serde .memory ended (StateProjectionV1.fromState outcome.state) digest
      pure (.accepted outcome.events)
  | .ok none =>
      match outcome.state.status with
      | .broken _ => stopWith .gameBroken
      | _ => pure (.accepted outcome.events)

/-- An accepted action is recorded. -/
theorem submitWith_taken (action : GameAction) (hwrites : serde.Writes) (hactive : m.lifecycle = .active)
    {outcome : ActionOutcome} {digest : StateDigestV1}
    (hdigest : serde.compute (StateProjectionV1.fromState outcome.state) = .ok digest)
    (hterminates : Terminates outcome) :
    ∃ m', submitWith serde .memory action (.ok outcome) m = (.ok (.accepted outcome.events), m') := by
  rw [submitWith_active hactive]
  obtain ⟨m₁, happend, -⟩ := append_of_writes (m := m) hwrites
    (prepareAction m.nextSequence m.nextStep action)
  obtain ⟨chunks, hchunks⟩ := encodes_of_writes hwrites
    (prepareAcceptedStep m₁.nextSequence m.nextStep outcome.events digest)
  obtain ⟨m₂, hrecords⟩ := appendRecords_of_encodes (m := { m₁ with
    nextStep := m₁.nextStep + 1, state := outcome.state }) hchunks
  have hrest : ∃ m', concludeStep serde outcome digest
      { m₂ with totalEvents := m₂.totalEvents + outcome.events.length } =
        (.ok (.accepted outcome.events), m') := by
    unfold concludeStep
    obtain ⟨hplaying, hevents⟩ | ⟨ended, hended, hevents⟩ := hterminates
    · have hcheck : checkTerminalEvents outcome.state.status outcome.events = .ok none := by
        unfold checkTerminalEvents
        rw [hplaying, hevents]
      rw [hcheck, hplaying]
      exact ⟨_, rfl⟩
    · have hcheck : checkTerminalEvents outcome.state.status outcome.events = .ok (some ended) := by
        unfold checkTerminalEvents
        rw [hended, hevents]
        exact if_pos rfl
      rw [hcheck]
      simp only [completeEndedMatch, Recording.bind_ok_iff, this_ok_iff, flush_ok_iff, update_ok_iff]
      obtain ⟨last, hlast⟩ := encodes_of_writes hwrites (prepareCompletion ⟨m₂.nextSequence,
        m₂.nextStep - 1, m₂.totalEvents + outcome.events.length⟩ ended
        (StateProjectionV1.fromState outcome.state) digest)
      obtain ⟨m₃, hm₃⟩ := appendRecords_of_encodes (m := { m₂ with
        totalEvents := m₂.totalEvents + outcome.events.length }) hlast
      exact ⟨_, (), _, ⟨_, _, ⟨rfl, rfl⟩, (), m₃, hm₃, (), _, rfl, rfl⟩, rfl⟩
  obtain ⟨m', hm'⟩ := hrest
  refine ⟨m', Recording.bind_ok_iff.mpr ⟨(), m₁, happend,
    Recording.bind_ok_iff.mpr ⟨(), _, update_ok_iff.mpr rfl, ?_⟩⟩⟩
  simp only [recordAnswer, recordAcceptedStep, Recording.bind_ok_iff, update_ok_iff,
    computeDigest_ok_iff, this_ok_iff, flush_ok_iff]
  exact ⟨(), _, rfl, digest, _, ⟨hdigest, rfl⟩, _, _, ⟨rfl, rfl⟩, (), m₂, hrecords, (), _, rfl, (), _,
    rfl, hm'⟩

end

end RecordedMatch

/-! ## Recording what a transcript recounts -/

theorem gameEndedOf_eq (events : List GameEvent) :
    Replay.gameEndedOf events = (endedEvents events).map GameOutcomeV1.ofCore := by
  unfold Replay.gameEndedOf endedEvents
  rw [List.map_filterMap]
  refine List.filterMap_congr (fun event _ => ?_)
  cases event <;> rfl

theorem Accepted.playing {state : GameState} {action : GameAction} {outcome : ActionOutcome}
    (h : Accepted state action outcome) : state.status = .playing := by
  obtain ⟨fuel, h⟩ := h
  unfold apply at h
  cases hh : Apply.handle state action with
  | error e =>
      rw [hh] at h
      cases h
  | ok o => exact Apply.playing_of_handle hh

section
variable {serde : Serde} {header : HeaderV1} {created : MatchCreatedV1} {initial state : GameState}
  {actions : List GameAction} {steps : List TranscriptStepV1}
  {m₀ m m' : RecordedMatch (List (List UInt8))}

/-- A recorder takes every answer of a match that goes on. -/
theorem WrittenSoFar.takes (hopen : WrittenSoFar serde header created initial [] [] m₀)
    (hwrites : serde.Writes) (hrun : Recounts serde.compute initial actions steps state)
    (hquiet : ∀ step ∈ steps, announced step.events = []) (hplaying : state.status = .playing) :
    ∃ (taken : List RecordedStep) (steps' : List TranscriptStepV1)
      (m : RecordedMatch (List (List UInt8))),
      m₀.Submits serde .memory actions (taken.map Except.ok) m ∧
      WrittenSoFar serde header created initial actions steps' m ∧ m.state = state := by
  induction hrun with
  | start => exact ⟨[], [], m₀, .nil, hopen, hopen.recounts.state_of_nil⟩
  | @accepted actions steps state action outcome record records completion hrun haccepted haction
      hevents hdigest ih =>
      obtain ⟨taken, steps', m, hsubmits, hsofar, hstate⟩ := ih
        (fun step hstep => hquiet step (List.mem_append_left _ hstep)) haccepted.playing
      have hnone : endedEvents outcome.events = [] := by
        have hlast := hquiet _ (List.mem_append_right _ (List.mem_singleton_self _))
        change announced records = [] at hlast
        rw [Replay.announced_of_written hevents, gameEndedOf_eq] at hlast
        exact List.map_eq_nil_iff.mp hlast
      obtain ⟨m', hm'⟩ := RecordedMatch.submitWith_taken action hwrites hsofar.active
        hdigest (.inl ⟨hplaying, hnone⟩)
      have hsubmit : m.Submit serde .memory action (.ok (.accepted outcome.events)) m' := by
        obtain ⟨fuel, happly⟩ := haccepted
        exact ⟨_, fun _ => ⟨fuel, by rw [hstate]; exact happly⟩, hm'⟩
      have hafter : m'.state = outcome.state := by
        obtain ⟨-, ⟨_, _, _, hwrong, -⟩ | ⟨_, _, _, after, heq, hinto⟩⟩ :=
          RecordedMatch.submitWith_ok hm'
        · cases hwrong
        · cases heq
          obtain ⟨-, -, rfl⟩ | ⟨ended, _, hended, -⟩ := hinto.result
          · rw [hinto.stepped]
            rfl
          · rw [hplaying] at hended
            cases hended
      obtain ⟨step, hstep⟩ | ⟨ended, t, hwhole, -⟩ := hsofar.submit hsubmit
      · refine ⟨taken ++ [.accepted outcome.events], _, m', ?_, hstep, hafter⟩
        rw [List.map_append]
        exact .snoc hsubmits hsubmit
      · have hended := hwhole.ended
        rw [hafter, hplaying] at hended
        cases hended
  | @rejected actions steps state action error fuel record rejection hrun happly haction herror
      hdigest ih =>
      obtain ⟨taken, steps', m, hsubmits, hsofar, hstate⟩ := ih
        (fun step hstep => hquiet step (List.mem_append_left _ hstep)) hplaying
      obtain ⟨m', hm'⟩ := RecordedMatch.submitWith_refused action error hwrites
        hsofar.active hsofar.digest
      have hsubmit : m.Submit serde .memory action (.ok (.rejected error)) m' :=
        ⟨_, fun _ => ⟨fuel, by rw [hstate]; exact happly⟩, hm'⟩
      have hafter : m'.state = state := by
        obtain ⟨-, ⟨_, _, _, -, hinto⟩ | ⟨_, _, _, _, hwrong, -⟩⟩ := RecordedMatch.submitWith_ok hm'
        · rw [hinto.result]
          exact hstate
        · cases hwrong
      obtain ⟨step, hstep⟩ | ⟨ended, t, hwhole, -⟩ := hsofar.submit hsubmit
      · refine ⟨taken ++ [.rejected error], _, m', ?_, hstep, hafter⟩
        rw [List.map_append]
        exact .snoc hsubmits hsubmit
      · have hended := hwhole.ended
        rw [hafter, hplaying] at hended
        cases hended

/-- A match that is on can be recorded. -/
theorem start_of_writes (hwrites : serde.Writes) (metadata : List (String × JsonValue))
    (requiredSets : List SetRequirementV1) (hplaying : initial.status = .playing)
    {digest : StateDigestV1}
    (hdigest : serde.compute (StateProjectionV1.fromState initial) = .ok digest) :
    ∃ m₀, RecordedMatch.start serde .memory [] metadata requiredSets initial = .ok m₀ := by
  obtain ⟨header, hheader⟩ := RecordedMatch.encodes_of_writes hwrites
    [.header (HeaderV1.new metadata)]
  obtain ⟨created, hcreated⟩ := RecordedMatch.encodes_of_writes hwrites [.matchCreated
    (MatchCreatedV1.new requiredSets (StateProjectionV1.fromState initial) digest)]
  obtain ⟨headerBytes, hheaderBytes, -⟩ := mapM_cons_ok_iff.mp hheader
  obtain ⟨createdBytes, hcreatedBytes, -⟩ := mapM_cons_ok_iff.mp hcreated
  refine ⟨⟨[headerBytes, createdBytes], initial, 2, 1, 0, .active⟩, ?_⟩
  simp only [RecordedMatch.start, prepareStart, bind_ok_iff, mapError_ok_iff]
  refine ⟨(), ?_, _, ⟨digest, hdigest, rfl⟩, headerBytes, hheaderBytes, createdBytes, hcreatedBytes,
    (), rfl, (), rfl, (), rfl, rfl⟩
  unfold checkInitialStatus
  rw [hplaying]

/-- The last step of a complete transcript is an accepted one that ends the match. -/
theorem TranscriptV1.WellFormed.lastStep
    {compute : StateProjectionV1 → Except CanonicalStateError StateDigestV1} {t : TranscriptV1}
    {outcome : GameOutcomeV1} (hwell : t.WellFormed compute outcome)
    (hrun : Recounts compute initial actions t.steps state) :
    ∃ before earlier mid action last, actions = before ++ [action] ∧
      Recounts compute initial before earlier mid ∧
      (∀ step ∈ earlier, announced step.events = []) ∧ Accepted mid action last ∧
      (∃ digest, compute (StateProjectionV1.fromState last.state) = .ok digest) ∧
      last.state = state ∧
      endedEvents last.events = [GameOutcomeV1.ofCore.symm outcome] := by
  obtain ⟨earlier, final, hsteps, hannounced, hquiet⟩ := hwell.terminal
  rw [hsteps] at hrun
  have hlength := hrun.length
  rw [List.length_append, List.length_singleton] at hlength
  obtain ⟨before, action, rfl⟩ : ∃ before action, actions = before ++ [action] := by
    induction actions using List.reverseRecOn with
    | nil => simp at hlength
    | append_singleton before action _ => exact ⟨before, action, rfl⟩
  obtain ⟨earlier', final', mid, hsplit, hbefore, hstep⟩ := hrun.snoc_inv
  obtain ⟨rfl, hfinal⟩ := List.append_inj' hsplit rfl
  obtain rfl := List.singleton_inj.mp hfinal
  cases hstep with
  | rejected => cases hannounced
  | @accepted last record records completion haccepted haction hevents hdigest =>
      refine ⟨before, earlier, mid, action, last, rfl, hbefore, hquiet, haccepted, ⟨_, hdigest⟩, rfl,
        ?_⟩
      change announced records = [outcome] at hannounced
      rw [Replay.announced_of_written hevents, gameEndedOf_eq] at hannounced
      obtain ⟨ended, hended, hcore⟩ := List.map_eq_singleton_iff.mp hannounced
      rw [hended, ← hcore, Equiv.symm_apply_apply]

/-- A state on the wire that has ended is one that has ended. -/
theorem status_of_final {outcome : GameOutcomeV1} {projection : StateProjectionV1}
    (hended : projection.status = .ended outcome)
    (h : StateProjectionV1.fromState state = projection) :
    state.status = .ended (GameOutcomeV1.ofCore.symm outcome) := by
  have hstatus : GameStatusV1.fromCore state.status = .ended outcome := by
    rw [← hended, ← h]
    rfl
  cases hs : state.status with
  | playing =>
      rw [hs] at hstatus
      cases hstatus
  | broken rule =>
      rw [hs] at hstatus
      cases hstatus
  | ended ended =>
      rw [hs] at hstatus
      rw [← GameStatusV1.ended.inj hstatus, Equiv.symm_apply_apply]

theorem status_of_initial {projection : StateProjectionV1} (hplaying : projection.status = .playing)
    (h : StateProjectionV1.fromState state = projection) : state.status = .playing := by
  have hstatus : GameStatusV1.fromCore state.status = .playing := by
    rw [← hplaying, ← h]
    rfl
  cases hs : state.status with
  | playing => rfl
  | broken rule =>
      rw [hs] at hstatus
      cases hstatus
  | ended ended =>
      rw [hs] at hstatus
      cases hstatus

variable {t t' : TranscriptV1} {outcome : GameOutcomeV1}

theorem canonical_header (h : ∀ record ∈ t.records, record.Canonical) :
    (RecordV1.header t.header).Canonical := h _ List.mem_cons_self

/-- A recorder that is started on a state and given actions completes, and has written the records of
a transcript. -/
def TranscriptV1.WrittenBy (t : TranscriptV1) (serde : Serde) (initial : GameState)
    (actions : List GameAction) : Prop :=
  ∃ (m₀ m : RecordedMatch (List (List UInt8))) (taken : List RecordedStep),
    RecordedMatch.start serde .memory [] t.header.metadata t.matchCreated.requiredSets initial =
      .ok m₀ ∧
    m₀.Submits serde .memory actions (taken.map Except.ok) m ∧
    m.lifecycle = .stopped .matchCompleted ∧ t.records.mapM serde.encodeRecord = .ok m.writer

/-- A recorder that is given the actions of a complete transcript writes the transcript's records. -/
theorem recorder_writes (hwell : t.WellFormed serde.compute outcome)
    (hcanonical : ∀ record ∈ t.records, record.Canonical) (hwrites : serde.Writes)
    (hinitial : StateProjectionV1.fromState initial = t.matchCreated.initialState)
    (hrun : Recounts serde.compute initial actions t.steps state)
    (hfinal : StateProjectionV1.fromState state = t.finalState.finalState) :
    t.WrittenBy serde initial actions := by
  have hplaying := status_of_initial hwell.initial_playing hinitial
  have hended := status_of_final hwell.final_ended hfinal
  obtain ⟨m₀, hstart⟩ := start_of_writes hwrites t.header.metadata t.matchCreated.requiredSets
    hplaying (by rw [hinitial]; exact hwell.initial_digest)
  obtain ⟨digest, hopen⟩ := writtenSoFar_start hstart
  obtain ⟨before, earlier, mid, action, last, rfl, hbefore, hquiet, haccepted, ⟨lastDigest, hdigest⟩,
    rfl, hevents⟩ := hwell.lastStep hrun
  obtain ⟨taken, steps', m, hsubmits, hsofar, hstate⟩ := hopen.takes hwrites hbefore hquiet
    haccepted.playing
  obtain ⟨m', hm'⟩ := RecordedMatch.submitWith_taken action hwrites hsofar.active hdigest
    (.inr ⟨_, hended, hevents⟩)
  have hsubmit : m.Submit serde .memory action (.ok (.accepted last.events)) m' := by
    obtain ⟨fuel, happly⟩ := haccepted
    exact ⟨_, fun _ => ⟨fuel, by rw [hstate]; exact happly⟩, hm'⟩
  have hafter : m'.state = last.state := by
    obtain ⟨-, ⟨_, _, _, hwrong, -⟩ | ⟨_, _, _, after, heq, hinto⟩⟩ := RecordedMatch.submitWith_ok hm'
    · cases hwrong
    · cases heq
      obtain ⟨hwrong, -⟩ | ⟨ended, _, -, -, -, rfl⟩ := hinto.result
      · rw [hended] at hwrong
        cases hwrong
      · rw [hinto.stepped]
        rfl
  obtain ⟨step, hstep⟩ | ⟨ended, t', hwhole, hcompleted⟩ := hsofar.submit hsubmit
  · have hstill := hstep.playing
    rw [hafter, hended] at hstill
    cases hstill
  have hsame : t = t' := by
    refine TranscriptV1.eq_of_recounts ⟨?_, ?_, ?_⟩ hwell hwhole.wellFormed
      (canonical_header hcanonical) (canonical_header hwhole.canonical) hrun hwhole.recounts hfinal
      hwhole.final.symm
    · rw [hwhole.header]
      rfl
    · rw [hwhole.created]
      rfl
    · rw [hwhole.created, ← hinitial]
      rfl
  refine ⟨m₀, m', taken ++ [.accepted last.events], hstart, ?_, hcompleted, ?_⟩
  · rw [List.map_append]
    exact .snoc hsubmits hsubmit
  · rw [hsame]
    exact hwhole.written

/-! ## Reading what a recorder wrote -/

variable {record record' : RecordV1} {bytes : List UInt8}

/-- A line tells its record apart. -/
theorem Serde.ReadsBack.unique (h : serde.ReadsBack record bytes)
    (h' : serde.ReadsBack record' bytes) : record = record' := by
  obtain ⟨text, hutf8, hvalue, hdecodes⟩ := h.text
  obtain ⟨text', hutf8', hvalue', hdecodes'⟩ := h'.text
  obtain rfl := Option.some.inj (hutf8.symm.trans hutf8')
  have hjson := Except.ok.inj (hvalue.symm.trans hvalue')
  have hname : recordName record = recordName record' := by
    have hget := RecordV1.get_record record
    rw [hjson, RecordV1.get_record] at hget
    exact (JsonValue.string.inj (Option.some.inj hget)).symm
  cases record <;> cases record' <;> first
    | exact congrArg _ (Except.ok.inj (Eq.trans (Eq.symm hdecodes) hdecodes'))
    | simp [recordName] at hname

/-- The bytes written for records are read back by the readers, whatever record they are written for. -/
def Serde.ReadsAll (serde : Serde) (records : List RecordV1) : Prop :=
  ∀ written ∈ records, ∀ record bytes, serde.toVec written = .ok bytes →
    serde.toVec record = .ok bytes → serde.ReadsBack record bytes

theorem Serde.ReadsAll.chunks {records : List RecordV1} {chunks : List (List UInt8)}
    (hback : serde.ReadsAll records) (h : records.mapM serde.encodeRecord = .ok chunks) :
    ∀ record bytes, serde.toVec record = .ok bytes → bytes ++ [10] ∈ chunks →
      serde.ReadsBack record bytes := by
  induction records generalizing chunks with
  | nil =>
      cases h
      intro record bytes _ hmem
      exact absurd hmem List.not_mem_nil
  | cons written records ih =>
      obtain ⟨chunk, hchunk, rest, hrest, rfl⟩ := mapM_cons_ok_iff.mp h
      simp only [Serde.encodeRecord, bind_ok_iff, pure_ok_iff] at hchunk
      obtain ⟨first, hfirst, rfl⟩ := hchunk
      intro record bytes hbytes hmem
      obtain heq | hmem := List.mem_cons.mp hmem
      · obtain rfl := List.append_cancel_right heq
        exact hback written List.mem_cons_self record bytes hfirst hbytes
      · exact ih (fun w hw => hback w (List.mem_cons_of_mem _ hw)) hrest record bytes hbytes hmem

/-- So do the chunks of a sink. -/
theorem records_unique {records records' : List RecordV1} {chunks : List (List UInt8)}
    (hback : serde.ReadsAll records) (h : records.mapM serde.encodeRecord = .ok chunks)
    (h' : records'.mapM serde.encodeRecord = .ok chunks) : records = records' := by
  have hchunks := hback.chunks h
  obtain ⟨lines, rfl, hlines⟩ := readsBack_of_mapM h hchunks
  obtain ⟨lines', hsame, hlines'⟩ := readsBack_of_mapM h' hchunks
  obtain rfl : lines = lines' :=
    (List.map_injective_iff.mpr (fun _ _ => List.append_cancel_right)) hsame
  clear h h' hsame hback hchunks
  induction hlines generalizing records' with
  | nil =>
      cases hlines'
      rfl
  | cons hline _ ih =>
      obtain ⟨_, rest, hline', hrest, rfl⟩ := List.forall₂_cons_right_iff.mp hlines'
      rw [hline.unique hline', ih hrest]

/-- A complete transcript that a recorder wrote recounts what was submitted. -/
theorem recorder_wrote (hwell : t.WellFormed serde.compute outcome)
    (hback : serde.ReadsAll t.records) (h : t.WrittenBy serde initial actions) :
    ∃ state, Recounts serde.compute initial actions t.steps state ∧
      StateProjectionV1.fromState state = t.finalState.finalState := by
  obtain ⟨m₀, m, taken, hstart, hsubmits, hcompleted, hwritten⟩ := h
  obtain ⟨digest, hopen⟩ := writtenSoFar_start hstart
  generalize hresults : taken.map Except.ok = results at hsubmits
  cases hsubmits with
  | nil =>
      have hactive := hopen.active
      rw [hcompleted] at hactive
      cases hactive
  | @snoc actions results mid last action result hbefore hlast =>
      obtain ⟨step, hstep⟩ : ∃ step, result = .ok step := by
        have hmem : result ∈ taken.map Except.ok := by
          rw [hresults]
          exact List.mem_append_right _ (List.mem_singleton_self _)
        obtain ⟨step, -, hstep⟩ := List.mem_map.mp hmem
        exact ⟨step, hstep.symm⟩
      rw [hstep] at hlast
      have hactive : mid.lifecycle = .active := by
        obtain ⟨answer, -, hsubmit⟩ := hlast
        exact (RecordedMatch.submitWith_ok hsubmit).1
      obtain ⟨steps, hsteps⟩ := hopen.submits hbefore hactive
      obtain ⟨s, hs⟩ | ⟨ended, t', hwhole, -⟩ := hsteps.submit hlast
      · have hstill := hs.active
        rw [hcompleted] at hstill
        cases hstill
      · have hrecords := records_unique hback hwritten hwhole.written
        have hfold : foldRecords serde.compute (t.records.map (⟨0, ·⟩)) = .ok t :=
          foldRecords_ok_iff.mpr ⟨by simp [Function.comp_def], outcome, hwell⟩
        have hfold' : foldRecords serde.compute (t.records.map (⟨0, ·⟩)) = .ok t' :=
          foldRecords_ok_iff.mpr
            ⟨by rw [← hrecords]; simp [Function.comp_def], _, hwhole.wellFormed⟩
        obtain rfl := Except.ok.inj (hfold.symm.trans hfold')
        exact ⟨_, hwhole.recounts, hwhole.final.symm⟩

end

end Summoners
