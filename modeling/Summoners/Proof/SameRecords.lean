import Summoners.Proof.Replays

/-! # One match, one transcript

The numbers of records, steps and events are fixed by the lifecycle grammar, and everything else by
the engine. So two complete transcripts of one match are the same.
-/

namespace Summoners
set_option autoImplicit false
open Checked

/-! ## Records without their numbers -/

namespace RecordV1

/-- The record under the sequence number 0. -/
def unnumbered : RecordV1 → RecordV1
  | .header value => .header { value with sequence := 0 }
  | .matchCreated value => .matchCreated { value with sequence := 0 }
  | .action value => .action { value with sequence := 0 }
  | .event value => .event { value with sequence := 0 }
  | .stepCompleted value => .stepCompleted { value with sequence := 0 }
  | .stepRejected value => .stepRejected { value with sequence := 0 }
  | .finalState value => .finalState { value with sequence := 0 }
  | .matchCompleted value => .matchCompleted { value with sequence := 0 }

theorem eq_of_unnumbered {record record' : RecordV1} (h : record.unnumbered = record'.unnumbered)
    (hnumber : recordSequence record = recordSequence record') : record = record' := by
  cases record <;> cases record' <;> simp only [unnumbered, reduceCtorEq] at h
  all_goals
    rename_i value value'
    cases value
    cases value'
    simp only [recordSequence] at hnumber
    simp_all

/-- Records numbered from 0 are known by what else they say. -/
theorem eq_of_numbered {records records' : List RecordV1}
    (hnumbers : records.map recordSequence = List.range records.length)
    (hnumbers' : records'.map recordSequence = List.range records'.length)
    (h : records.map unnumbered = records'.map unnumbered) : records = records' := by
  have hlength : records.length = records'.length := by
    have hlengths := congrArg List.length h
    rwa [List.length_map, List.length_map] at hlengths
  refine List.ext_getElem hlength fun i hi hi' => eq_of_unnumbered ?_ ?_
  · have hget := congrArg (fun l => l[i]?) h
    simpa [List.getElem?_eq_getElem hi, List.getElem?_eq_getElem hi'] using hget
  · rw [← hlength] at hnumbers'
    have hget := congrArg (fun l => l[i]?) (hnumbers.trans hnumbers'.symm)
    simpa [List.getElem?_eq_getElem hi, List.getElem?_eq_getElem hi'] using hget

end RecordV1

/-! ## Steps -/

section
variable {number : ℕ} {before : StateDigestV1} {record : ActionRecordV1} {action : GameAction}

/-- A well-formed accepted step is the one that a recorder writes. -/
theorem unnumbered_accepted {records : List EventRecordV1} {completion : StepCompletedV1}
    {events : List GameEvent}
    (hwell : StepWellFormed number before ⟨record, .accepted records completion⟩)
    (haction : record.action = ActionV1.fromCore action)
    (hevents : records.map (·.event) = events.map EventV1.fromCore) :
    (TranscriptStepV1.records ⟨record, .accepted records completion⟩).map RecordV1.unnumbered =
      (acceptedStep 0 number action completion.stateDigest events).records.map RecordV1.unnumbered := by
  obtain ⟨hstep, horder, hcompleted, hcount⟩ := hwell
  have hlength := Replay.length_of_written hevents
  have hmiddle : (records.map RecordV1.event).map RecordV1.unnumbered =
      (events.mapIdx (fun i event => RecordV1.event (prepareEvent 1 number i event))).map
        RecordV1.unnumbered := by
    apply List.ext_getElem?
    intro i
    rw [List.map_map, List.getElem?_map, List.getElem?_map, List.getElem?_mapIdx, Option.map_map]
    have hget := congrArg (fun l => l[i]?) hevents
    simp only [List.getElem?_map] at hget
    cases hrecord : records[i]? with
    | none =>
        rw [hrecord] at hget
        rw [Option.map_eq_none_iff.mp hget.symm]
        rfl
    | some event =>
        rw [hrecord] at hget
        obtain ⟨core, hcore, hwritten⟩ := Option.map_eq_some_iff.mp hget.symm
        obtain ⟨hnumber, hindex⟩ := horder i event hrecord
        obtain ⟨sequence, step, index, wire⟩ := event
        simp only at hnumber hindex hwritten
        rw [hcore, hnumber, hindex, ← hwritten]
        rfl
  rw [records_acceptedStep]
  unfold TranscriptStepV1.records prepareAcceptedStep
  simp only [List.map_cons, List.map_append, List.map_nil, hmiddle]
  obtain ⟨sequence, step, wire⟩ := record
  obtain ⟨sequence', step', count, digest⟩ := completion
  simp only at hstep haction hcompleted hcount
  rw [hstep, haction, hcompleted, hcount, hlength]
  rfl

theorem unnumbered_rejected {rejection : StepRejectedV1} {error : ActionError}
    (hwell : StepWellFormed number before ⟨record, .rejected rejection⟩)
    (haction : record.action = ActionV1.fromCore action)
    (herror : rejection.error = ErrorV1.ofCore error) :
    (TranscriptStepV1.records ⟨record, .rejected rejection⟩).map RecordV1.unnumbered =
      (rejectedStep 0 number action rejection.stateDigest error).records.map RecordV1.unnumbered := by
  obtain ⟨hstep, hrejected, -⟩ := hwell
  obtain ⟨sequence, step, wire⟩ := record
  obtain ⟨sequence', step', wire', digest⟩ := rejection
  simp only at hstep haction hrejected herror
  rw [hstep, haction, hrejected, herror]
  rfl

end

/-! ## Matches -/

section
variable {compute : StateProjectionV1 → Except CanonicalStateError StateDigestV1}
  {initial state state' : GameState} {actions : List GameAction} {action : GameAction}
  {steps steps' : List TranscriptStepV1} {digest digest' : StateDigestV1}

/-- One step recounts what the engine answers in a state. -/
inductive RecountsStep (compute : StateProjectionV1 → Except CanonicalStateError StateDigestV1)
    (mid : GameState) (action : GameAction) : TranscriptStepV1 → GameState → Prop
  | accepted {outcome : ActionOutcome} {record : ActionRecordV1} {records : List EventRecordV1}
      {completion : StepCompletedV1} (haccepted : Accepted mid action outcome)
      (haction : record.action = ActionV1.fromCore action)
      (hevents : records.map (·.event) = outcome.events.map EventV1.fromCore)
      (hdigest : compute (StateProjectionV1.fromState outcome.state) = .ok completion.stateDigest) :
      RecountsStep compute mid action ⟨record, .accepted records completion⟩ outcome.state
  | rejected {error : ActionError} {fuel : ℕ} {record : ActionRecordV1} {rejection : StepRejectedV1}
      (happly : apply fuel mid action = some (.error error))
      (haction : record.action = ActionV1.fromCore action)
      (herror : rejection.error = ErrorV1.ofCore error)
      (hdigest : compute (StateProjectionV1.fromState mid) = .ok rejection.stateDigest) :
      RecountsStep compute mid action ⟨record, .rejected rejection⟩ mid

/-- The last step of a match, and the match before it. -/
theorem Recounts.snoc_inv (h : Recounts compute initial (actions ++ [action]) steps state) :
    ∃ before step mid, steps = before ++ [step] ∧ Recounts compute initial actions before mid ∧
      RecountsStep compute mid action step state := by
  generalize hall : actions ++ [action] = all at h
  cases h with
  | start => simp at hall
  | accepted hrun haccepted haction hevents hdigest =>
      obtain ⟨rfl, hlast⟩ := List.append_inj' hall rfl
      obtain rfl := List.singleton_inj.mp hlast
      exact ⟨_, _, _, rfl, hrun, .accepted haccepted haction hevents hdigest⟩
  | rejected hrun happly haction herror hdigest =>
      obtain ⟨rfl, hlast⟩ := List.append_inj' hall rfl
      obtain rfl := List.singleton_inj.mp hlast
      exact ⟨_, _, _, rfl, hrun, .rejected happly haction herror hdigest⟩

theorem RecountsStep.snoc {mid : GameState} {step : TranscriptStepV1}
    (h : RecountsStep compute mid action step state)
    (hrun : Recounts compute initial actions steps mid) :
    Recounts compute initial (actions ++ [action]) (steps ++ [step]) state := by
  cases h with
  | accepted haccepted haction hevents hdigest =>
      exact .accepted hrun haccepted haction hevents hdigest
  | rejected happly haction herror hdigest => exact .rejected hrun happly haction herror hdigest

/-- Well-formed steps that recount one answer say the same. -/
theorem RecountsStep.unique {mid : GameState} {step step' : TranscriptStepV1} {number : ℕ}
    (h : RecountsStep compute mid action step state)
    (h' : RecountsStep compute mid action step' state')
    (hwell : StepWellFormed number digest step) (hwell' : StepWellFormed number digest' step') :
    state = state' ∧ step.records.map RecordV1.unnumbered = step'.records.map RecordV1.unnumbered ∧
      step.events.length = step'.events.length := by
  cases h with
  | accepted haccepted haction hevents hdigest =>
      obtain ⟨fuel, happly⟩ := haccepted
      cases h' with
      | accepted haccepted' haction' hevents' hdigest' =>
          obtain ⟨fuel', happly'⟩ := haccepted'
          obtain rfl := Except.ok.inj (apply_unique happly happly')
          rw [hdigest] at hdigest'
          refine ⟨rfl, ?_, ?_⟩
          · rw [unnumbered_accepted hwell haction hevents, unnumbered_accepted hwell' haction' hevents',
              Except.ok.inj hdigest']
          · exact (Replay.length_of_written hevents).trans (Replay.length_of_written hevents').symm
      | rejected happly' =>
          have hsame := apply_unique happly happly'
          cases hsame
  | rejected happly haction herror hdigest =>
      cases h' with
      | accepted haccepted' =>
          obtain ⟨fuel', happly'⟩ := haccepted'
          have hsame := apply_unique happly happly'
          cases hsame
      | rejected happly' haction' herror' hdigest' =>
          obtain rfl := Except.error.inj (apply_unique happly happly')
          rw [hdigest] at hdigest'
          refine ⟨rfl, ?_, rfl⟩
          rw [unnumbered_rejected hwell haction herror, unnumbered_rejected hwell' haction' herror',
            Except.ok.inj hdigest']

/-- Well-formed steps that recount one match say the same. -/
theorem Recounts.unique (h : Recounts compute initial actions steps state)
    (h' : Recounts compute initial actions steps' state') (hwell : StepsWellFormed digest steps)
    (hwell' : StepsWellFormed digest' steps') :
    state = state' ∧ steps.length = steps'.length ∧ eventTotal steps = eventTotal steps' ∧
      (steps.flatMap TranscriptStepV1.records).map RecordV1.unnumbered =
        (steps'.flatMap TranscriptStepV1.records).map RecordV1.unnumbered := by
  induction actions using List.reverseRecOn generalizing steps steps' state state' with
  | nil =>
      have hlength := h.length
      have hlength' := h'.length
      obtain rfl := List.length_eq_zero_iff.mp hlength
      obtain rfl := List.length_eq_zero_iff.mp hlength'
      exact ⟨h.state_of_nil.trans h'.state_of_nil.symm, rfl, rfl, rfl⟩
  | append_singleton actions action ih =>
      obtain ⟨before, step, mid, rfl, hrun, hstep⟩ := h.snoc_inv
      obtain ⟨before', step', mid', rfl, hrun', hstep'⟩ := h'.snoc_inv
      obtain ⟨hsteps, hlast⟩ := stepsWellFormed_snoc.mp hwell
      obtain ⟨hsteps', hlast'⟩ := stepsWellFormed_snoc.mp hwell'
      obtain ⟨rfl, hlength, htotal, hrecords⟩ := ih hrun hrun' hsteps hsteps'
      rw [← hlength] at hlast'
      obtain ⟨hstate, hsame, hevents⟩ := hstep.unique hstep' hlast hlast'
      refine ⟨hstate, ?_, ?_, ?_⟩
      · rw [List.length_append, List.length_append, hlength]
        rfl
      · rw [eventTotal_snoc, eventTotal_snoc, htotal, hevents]
      · rw [List.flatMap_append, List.flatMap_append, List.map_append, List.map_append, hrecords,
          List.flatMap_singleton, List.flatMap_singleton, hsame]

/-- What a transcript says about its match beside the steps. -/
def TranscriptV1.SameMatch (t t' : TranscriptV1) : Prop :=
  t.header.metadata = t'.header.metadata ∧
    t.matchCreated.requiredSets = t'.matchCreated.requiredSets ∧
    t.matchCreated.initialState = t'.matchCreated.initialState

/-- Complete transcripts of one match are the same. -/
theorem TranscriptV1.eq_of_recounts {t t' : TranscriptV1} {outcome outcome' : GameOutcomeV1}
    (hsame : t.SameMatch t') (hwell : t.WellFormed compute outcome)
    (hwell' : t'.WellFormed compute outcome')
    (hcanonical : (RecordV1.header t.header).Canonical)
    (hcanonical' : (RecordV1.header t'.header).Canonical)
    (h : Recounts compute initial actions t.steps state)
    (h' : Recounts compute initial actions t'.steps state')
    (hfinal : StateProjectionV1.fromState state = t.finalState.finalState)
    (hfinal' : StateProjectionV1.fromState state' = t'.finalState.finalState) : t = t' := by
  obtain ⟨hmetadata, hsets, hinitial⟩ := hsame
  obtain ⟨hstate, hlength, htotal, hsteps⟩ := h.unique h' hwell.steps hwell'.steps
  have hprojection : t.finalState.finalState = t'.finalState.finalState := by
    rw [← hfinal, ← hfinal', hstate]
  have houtcome : outcome = outcome' := by
    have hended := hwell.final_ended
    rw [hprojection, hwell'.final_ended] at hended
    exact (GameStatusV1.ended.inj hended).symm
  have hdigest : t.finalState.stateDigest = t'.finalState.stateDigest := by
    have hcomputed := hwell.final_digest
    rw [hprojection, hwell'.final_digest] at hcomputed
    exact (Except.ok.inj hcomputed).symm
  have hopened : t.matchCreated.stateDigest = t'.matchCreated.stateDigest := by
    have hcomputed := hwell.initial_digest
    rw [hinitial, hwell'.initial_digest] at hcomputed
    exact (Except.ok.inj hcomputed).symm
  have hheader : (RecordV1.header t.header).unnumbered = (RecordV1.header t'.header).unnumbered := by
    obtain ⟨hformat, hversion⟩ := hcanonical
    obtain ⟨hformat', hversion'⟩ := hcanonical'
    simp only [RecordV1.unnumbered]
    rw [hformat, hversion, hformat', hversion', hmetadata]
  have hcreated : (RecordV1.matchCreated t.matchCreated).unnumbered =
      (RecordV1.matchCreated t'.matchCreated).unnumbered := by
    simp only [RecordV1.unnumbered]
    rw [hsets, hinitial, hopened]
  have hlast : (RecordV1.finalState t.finalState).unnumbered =
      (RecordV1.finalState t'.finalState).unnumbered := by
    simp only [RecordV1.unnumbered]
    rw [hprojection, hdigest]
  have hcompleted : (RecordV1.matchCompleted t.matchCompleted).unnumbered =
      (RecordV1.matchCompleted t'.matchCompleted).unnumbered := by
    simp only [RecordV1.unnumbered]
    rw [hwell.step_count, hwell.event_count, hwell.digest, hwell.winner, hwell.reason,
      hwell'.step_count, hwell'.event_count, hwell'.digest, hwell'.winner, hwell'.reason, hlength,
      htotal, hdigest, houtcome]
  have hrecords : t.records = t'.records := by
    refine RecordV1.eq_of_numbered hwell.sequence hwell'.sequence ?_
    unfold TranscriptV1.records
    simp only [List.map_cons, List.map_append, List.map_nil, hheader, hcreated, hsteps, hlast,
      hcompleted]
  -- the parser reads both from the same records
  have hread : foldRecords compute (t.records.map (⟨0, ·⟩)) = .ok t :=
    foldRecords_ok_iff.mpr ⟨by simp [List.map_map, Function.comp_def], _, hwell⟩
  have hread' : foldRecords compute (t.records.map (⟨0, ·⟩)) = .ok t' :=
    foldRecords_ok_iff.mpr ⟨by simp [List.map_map, Function.comp_def, hrecords], _, hwell'⟩
  rw [hread] at hread'
  exact Except.ok.inj hread'

end

end Summoners
