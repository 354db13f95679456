import Mathlib.Algebra.Ring.Nat
import Summoners.MatchLog.Replay
import Summoners.Proof.ParsesBack

/-! # Replaying is recording again

What each check of the replay lets through, and from it what the whole replay of a transcript
establishes: its steps recount the answers of the engine. A recorder that is given the same actions
writes the same records.
-/

namespace Summoners
set_option autoImplicit false
open Checked

namespace Replay

/-! ## Single checks -/

section
variable {compute : StateProjectionV1 → Except CanonicalStateError StateDigestV1}
  {projection : StateProjectionV1} {location : ReplayLocation} {digest : StateDigestV1}

theorem computeDigest_ok_iff :
    computeDigest compute projection location = .ok digest ↔ compute projection = .ok digest :=
  mapError_ok_iff

theorem verifyDigest_ok_iff :
    verifyDigest compute digest projection location = .ok () ↔ compute projection = .ok digest := by
  unfold verifyDigest
  simp only [bind_ok_iff, computeDigest_ok_iff, guard_ok_iff, and_true]
  constructor
  · rintro ⟨actual, hactual, rfl⟩
    exact hactual
  · exact fun h => ⟨digest, h, rfl⟩

theorem validateRequiredSetsWith_ok_iff {requirements : List SetRequirementV1}
    {setRevision : String → Option UInt32} :
    validateRequiredSetsWith requirements setRevision = .ok () ↔
      ∀ r ∈ requirements, setRevision r.set = some r.revision := by
  unfold validateRequiredSetsWith
  rw [forM_ok_iff]
  refine forall₂_congr fun r _ => ?_
  rw [refuse_ok_iff, not_not, and_iff_left rfl]

theorem verifyInitialState_ok_iff {state : GameState} :
    verifyInitialState compute projection digest state = .ok () ↔
      StateProjectionV1.fromState state = projection ∧ compute projection = .ok digest := by
  unfold verifyInitialState
  simp only [refuse_ok_iff, not_not, verifyDigest_ok_iff]
  refine and_congr_right fun h => ?_
  rw [h]

theorem prepareInitialStateWith_ok_iff {requirements : List SetRequirementV1}
    {setRevision : String → Option UInt32} {cards : CardSet} {state : GameState} :
    prepareInitialStateWith compute requirements projection digest setRevision cards = .ok state ↔
      (∀ r ∈ requirements, setRevision r.set = some r.revision) ∧
        projection.intoGameState cards = .ok state ∧
        StateProjectionV1.fromState state = projection ∧ compute projection = .ok digest := by
  unfold prepareInitialStateWith
  rw [check_ok_iff, validateRequiredSetsWith_ok_iff, bind_ok_iff]
  refine and_congr_right fun _ => ?_
  constructor
  · rintro ⟨s, hs, h⟩
    rw [check_ok_iff, verifyInitialState_ok_iff, pure_ok_iff] at h
    obtain ⟨⟨hprojection, hdigest⟩, rfl⟩ := h
    exact ⟨mapError_ok_iff.mp hs, hprojection, hdigest⟩
  · rintro ⟨hs, hprojection, hdigest⟩
    refine ⟨state, mapError_ok_iff.mpr hs, ?_⟩
    rw [check_ok_iff, verifyInitialState_ok_iff]
    exact ⟨⟨hprojection, hdigest⟩, rfl⟩

/-- One event: both lists have it and it converts, or none has it. -/
theorem verifyEvent_ok_iff {step index : ℕ} {records : List EventRecordV1}
    {events : List GameEvent} : verifyEvent step records events index = .ok () ↔
      (records[index]?).map (fun record => record.event.tryIntoCore) =
        (events[index]?).map Except.ok := by
  unfold verifyEvent
  cases records[index]? with
  | none => cases events[index]? <;> simp
  | some record =>
      cases hread : record.event.tryIntoCore with
      | error e => cases events[index]? <;> simp [hread, Except.mapError, bind, Except.bind]
      | ok event =>
          cases events[index]? <;>
            simp [hread, Except.mapError, bind, Except.bind]

/-- All events: each record reads as the event of the engine in its place. -/
theorem verifyEvents_ok_iff {step : ℕ} {records : List EventRecordV1} {events : List GameEvent} :
    (List.range (max records.length events.length)).forM (verifyEvent step records events) = .ok () ↔
      records.map (fun record => record.event.tryIntoCore) = events.map Except.ok := by
  rw [forM_ok_iff]
  simp only [List.mem_range, verifyEvent_ok_iff]
  constructor
  · intro h
    apply List.ext_getElem?
    intro i
    rw [List.getElem?_map, List.getElem?_map]
    by_cases hi : i < max records.length events.length
    · exact h i hi
    · rw [List.getElem?_eq_none (by omega), List.getElem?_eq_none (by omega)]
      rfl
  · intro h i _
    rw [← List.getElem?_map, ← List.getElem?_map, h]

theorem verifyAcceptedStep_ok_iff {step : ℕ} {records : List EventRecordV1}
    {expected : StateDigestV1} {outcome : ActionOutcome} :
    verifyAcceptedStep compute step records expected outcome = .ok digest ↔
      records.map (fun record => record.event.tryIntoCore) = outcome.events.map Except.ok ∧
        compute (StateProjectionV1.fromState outcome.state) = .ok expected ∧ digest = expected := by
  unfold verifyAcceptedStep
  simp only [check_ok_iff, verifyEvents_ok_iff, verifyDigest_ok_iff, computeDigest_ok_iff]
  refine and_congr_right fun _ => and_congr_right fun h => ?_
  rw [h, Except.ok.injEq, eq_comm]

theorem verifyRejectedStep_ok_iff {step : ℕ} {rejection : StepRejectedV1} {error : ActionError}
    {state : GameState} :
    verifyRejectedStep compute step rejection error state state true digest = .ok () ↔
      rejection.error = ErrorV1.ofCore error ∧ rejection.stateDigest = digest ∧
        compute (StateProjectionV1.fromState state) = .ok digest := by
  unfold verifyRejectedStep
  simp only [refuse_ok_iff, not_not, check_ok_iff, verifyDigest_ok_iff]
  rw [Equiv.eq_symm_apply]
  constructor
  · rintro ⟨herror, -, -, hcompute, hdigest, -⟩
    exact ⟨herror.symm, hdigest, hcompute⟩
  · rintro ⟨herror, hdigest, hcompute⟩
    exact ⟨herror.symm, trivial, by simp, hcompute, hdigest, trivial⟩

/-! ## The steps -/

/-- A step that the engine confirms, with what becomes of the loop's variables. -/
inductive Confirms (compute : StateProjectionV1 → Except CanonicalStateError StateDigestV1)
    (fuel : ℕ) (current : ReplayState) (step : TranscriptStepV1) (action : GameAction) :
    ReplayState → Prop
  | accepted {records : List EventRecordV1} {completion : StepCompletedV1} {outcome : ActionOutcome}
      (hresult : step.result = .accepted records completion)
      (happly : apply fuel current.state action = some (.ok outcome))
      (hevents : records.map (fun record => record.event.tryIntoCore) =
        outcome.events.map Except.ok)
      (hdigest : compute (StateProjectionV1.fromState outcome.state) = .ok completion.stateDigest) :
      Confirms compute fuel current step action
        ⟨outcome.state, completion.stateDigest, current.facts.stepCount + 1,
          current.facts.eventCount + outcome.events.length,
          current.facts.gameEnded ++ gameEndedOf outcome.events⟩
  | rejected {rejection : StepRejectedV1} {error : ActionError}
      (hresult : step.result = .rejected rejection)
      (happly : apply fuel current.state action = some (.error error))
      (herror : rejection.error = ErrorV1.ofCore error)
      (hsame : rejection.stateDigest = current.digest)
      (hdigest : compute (StateProjectionV1.fromState current.state) = .ok current.digest) :
      Confirms compute fuel current step action
        ⟨current.state, current.digest, current.facts.stepCount + 1, current.facts.eventCount,
          current.facts.gameEnded⟩

variable {fuel : ℕ} {current next : ReplayState} {step : TranscriptStepV1}
  {steps : List TranscriptStepV1}

theorem replayStep_ok_iff :
    replayStep compute (applyEngine fuel) current step = some (.ok next) ↔
      ∃ action, step.action.action.tryIntoCore = .ok action ∧
        Confirms compute fuel current step action next := by
  unfold replayStep
  cases hread : step.action.action.tryIntoCore with
  | error e => simp
  | ok action =>
      simp only [Except.ok.injEq, exists_eq_left', applyEngine, Option.map_map,
        Option.map_eq_some_iff, Function.comp_apply]
      constructor
      · rintro ⟨answer, happly, hanswer⟩
        unfold replayAnswer at hanswer
        cases hresult : step.result with
        | accepted records completion =>
            cases answer with
            | error e =>
                simp only [hresult, bind_ok_iff] at hanswer
                obtain ⟨_, hstop, -⟩ := hanswer
                cases hstop
            | ok outcome =>
                simp only [hresult, bind_ok_iff, pure_ok_iff, verifyAcceptedStep_ok_iff] at hanswer
                obtain ⟨_, ⟨hevents, hdigest, rfl⟩, _, rfl, rfl⟩ := hanswer
                exact .accepted hresult happly hevents hdigest
        | rejected rejection =>
            cases answer with
            | error e =>
                simp only [hresult, bind_ok_iff, pure_ok_iff] at hanswer
                obtain ⟨_, hverify, _, rfl, rfl⟩ := hanswer
                obtain ⟨herror, hsame, hdigest⟩ := verifyRejectedStep_ok_iff.mp hverify
                exact .rejected hresult happly herror hsame hdigest
            | ok outcome =>
                simp only [hresult, bind_ok_iff] at hanswer
                obtain ⟨_, hstop, -⟩ := hanswer
                cases hstop
      · intro h
        cases h with
        | accepted hresult happly hevents hdigest =>
            refine ⟨_, happly, ?_⟩
            unfold replayAnswer
            simp only [hresult, bind_ok_iff, pure_ok_iff, verifyAcceptedStep_ok_iff]
            exact ⟨_, ⟨hevents, hdigest, rfl⟩, _, rfl, rfl⟩
        | rejected hresult happly herror hsame hdigest =>
            refine ⟨_, happly, ?_⟩
            unfold replayAnswer
            simp only [hresult, bind_ok_iff, pure_ok_iff]
            exact ⟨_, verifyRejectedStep_ok_iff.mpr ⟨herror, hsame, hdigest⟩, _, rfl, rfl⟩

theorem replayFrom_cons_ok_iff :
    replayFrom compute (applyEngine fuel) current (step :: steps) = some (.ok next) ↔
      ∃ mid, replayStep compute (applyEngine fuel) current step = some (.ok mid) ∧
        replayFrom compute (applyEngine fuel) mid steps = some (.ok next) := by
  rw [replayFrom]
  rcases replayStep compute (applyEngine fuel) current step with _ | _ | mid <;> simp

theorem replayFrom_snoc_ok_iff :
    replayFrom compute (applyEngine fuel) current (steps ++ [step]) = some (.ok next) ↔
      ∃ mid, replayFrom compute (applyEngine fuel) current steps = some (.ok mid) ∧
        replayStep compute (applyEngine fuel) mid step = some (.ok next) := by
  induction steps generalizing current with
  | nil =>
      rw [List.nil_append, replayFrom_cons_ok_iff]
      simp only [replayFrom, Option.some.injEq, Except.ok.injEq]
      constructor
      · rintro ⟨mid, hstep, rfl⟩
        exact ⟨current, rfl, hstep⟩
      · rintro ⟨mid, rfl, hstep⟩
        exact ⟨next, hstep, rfl⟩
  | cons first steps ih =>
      rw [List.cons_append, replayFrom_cons_ok_iff]
      simp only [ih, replayFrom_cons_ok_iff]
      constructor
      · rintro ⟨mid, hfirst, last, hsteps, hlast⟩
        exact ⟨last, ⟨mid, hfirst, hsteps⟩, hlast⟩
      · rintro ⟨last, ⟨mid, hfirst, hsteps⟩, hlast⟩
        exact ⟨mid, hfirst, last, hsteps, hlast⟩

theorem replayStep_mono {fuel' : ℕ} (hle : fuel ≤ fuel') {answer : Except ReplayError ReplayState}
    (h : replayStep compute (applyEngine fuel) current step = some answer) :
    replayStep compute (applyEngine fuel') current step = some answer := by
  unfold replayStep applyEngine at h ⊢
  cases hread : step.action.action.tryIntoCore with
  | error e =>
      rw [hread] at h
      exact h
  | ok action =>
      simp only [hread, Option.map_map, Option.map_eq_some_iff] at h ⊢
      obtain ⟨result, happly, hanswer⟩ := h
      exact ⟨result, apply_mono hle happly, hanswer⟩

/-- More fuel changes no answer of a replay. -/
theorem replayFrom_mono {fuel' : ℕ} (hle : fuel ≤ fuel') {answer : Except ReplayError ReplayState}
    (h : replayFrom compute (applyEngine fuel) current steps = some answer) :
    replayFrom compute (applyEngine fuel') current steps = some answer := by
  induction steps generalizing current with
  | nil => exact h
  | cons step steps ih =>
      rw [replayFrom] at h ⊢
      cases hstep : replayStep compute (applyEngine fuel) current step with
      | none =>
          rw [hstep] at h
          cases h
      | some result =>
          rw [hstep] at h
          rw [replayStep_mono hle hstep]
          cases result with
          | error e => exact h
          | ok mid => exact ih h

/-! ## What a replay establishes -/

/-- The facts that a replay collects over some steps. -/
def factsOf (steps : List TranscriptStepV1) : ReplayFacts :=
  ⟨steps.length, eventTotal steps, steps.flatMap (fun step => announced step.events)⟩

theorem factsOf_snoc : factsOf (steps ++ [step]) =
    ⟨steps.length + 1, eventTotal steps + step.events.length,
      steps.flatMap (fun step => announced step.events) ++ announced step.events⟩ := by
  unfold factsOf
  rw [List.length_append, eventTotal_snoc, List.flatMap_append, List.flatMap_singleton]
  rfl

section
variable {records : List EventRecordV1} {events : List GameEvent}

theorem announced_of_written (h : records.map (·.event) = events.map EventV1.fromCore) :
    announced records = gameEndedOf events := by
  have hwire : announced records = (events.map EventV1.fromCore).filterMap EventV1.outcome := by
    rw [← h, List.filterMap_map]
    rfl
  rw [hwire, List.filterMap_map]
  refine List.filterMap_congr (fun event _ => ?_)
  cases event <;> rfl

theorem length_of_written (h : records.map (·.event) = events.map EventV1.fromCore) :
    records.length = events.length := by
  have hlength := congrArg List.length h
  rwa [List.length_map, List.length_map] at hlength

theorem reads_of_written (h : records.map (·.event) = events.map EventV1.fromCore) :
    records.map (fun record => record.event.tryIntoCore) = events.map Except.ok := by
  have hread := congrArg (List.map EventV1.tryIntoCore) h
  rw [List.map_map, List.map_map] at hread
  refine Eq.trans hread (List.map_congr_left fun event _ => ?_)
  exact EventV1.lossless.dec_enc trivial

/-- Records with canonical ids read as events only if they were written for them. -/
theorem written_of_reads (hcanonical : ∀ record ∈ records, CanonicalIds record.event.entityIds)
    (h : records.map (fun record => record.event.tryIntoCore) = events.map Except.ok) :
    records.map (·.event) = events.map EventV1.fromCore := by
  induction records generalizing events with
  | nil =>
      obtain rfl := List.map_eq_nil_iff.mp h.symm
      rfl
  | cons record records ih =>
      cases events with
      | nil => cases h
      | cons event events =>
          rw [List.map_cons, List.map_cons, List.cons.injEq] at h ⊢
          obtain ⟨hhead, htail⟩ := h
          exact ⟨(EventV1.lossless.enc_dec (hcanonical record List.mem_cons_self) hhead).symm,
            ih (fun r hr => hcanonical r (List.mem_cons_of_mem _ hr)) htail⟩

end

variable {initial state : GameState} {actions : List GameAction}

/-- Steps that recount the engine's answers are confirmed, one after the other. -/
theorem replays_of_recounts (h : Recounts compute initial actions steps state)
    (hdigest : compute (StateProjectionV1.fromState initial) = .ok digest) :
    compute (StateProjectionV1.fromState state) = .ok (lastDigest digest steps) ∧
      ∃ fuel, replayFrom compute (applyEngine fuel) ⟨initial, digest, .default⟩ steps =
        some (.ok ⟨state, lastDigest digest steps, factsOf steps⟩) := by
  induction h with
  | start => exact ⟨hdigest, 0, rfl⟩
  | @accepted actions steps state action outcome record records completion hrun haccepted haction
      hevents hcompleted ih =>
      obtain ⟨-, fuel, hreplay⟩ := ih
      obtain ⟨fuel', happly⟩ := haccepted
      have hlast : lastDigest digest (steps ++ [⟨record, .accepted records completion⟩]) =
          completion.stateDigest := by
        rw [lastDigest_snoc]
        rfl
      rw [hlast]
      refine ⟨hcompleted, max fuel fuel', replayFrom_snoc_ok_iff.mpr
        ⟨_, replayFrom_mono (Nat.le_max_left _ _) hreplay, replayStep_ok_iff.mpr ⟨action, ?_, ?_⟩⟩⟩
      · rw [haction]
        exact ActionV1.lossless.dec_enc trivial
      · rw [factsOf_snoc]
        have hconfirms : Confirms compute (max fuel fuel')
            ⟨state, lastDigest digest steps, factsOf steps⟩ ⟨record, .accepted records completion⟩
            action _ :=
          .accepted rfl (apply_mono (Nat.le_max_right fuel fuel') happly) (reads_of_written hevents)
            hcompleted
        rw [← announced_of_written hevents, ← length_of_written hevents] at hconfirms
        exact hconfirms
  | @rejected actions steps state action error fuel' record rejection hrun happly haction herror
      hsame ih =>
      obtain ⟨hcompute, fuel, hreplay⟩ := ih
      have hlast : lastDigest digest (steps ++ [⟨record, .rejected rejection⟩]) =
          lastDigest digest steps := by
        rw [lastDigest_snoc]
        rfl
      rw [hlast]
      refine ⟨hcompute, max fuel fuel', replayFrom_snoc_ok_iff.mpr
        ⟨_, replayFrom_mono (Nat.le_max_left _ _) hreplay, replayStep_ok_iff.mpr ⟨action, ?_, ?_⟩⟩⟩
      · rw [haction]
        exact ActionV1.lossless.dec_enc trivial
      · rw [factsOf_snoc]
        have hunchanged : rejection.stateDigest = lastDigest digest steps := by
          rw [hcompute] at hsame
          exact (Except.ok.inj hsame).symm
        have hconfirms : Confirms compute (max fuel fuel')
            ⟨state, lastDigest digest steps, factsOf steps⟩ ⟨record, .rejected rejection⟩ action _ :=
          .rejected rfl (apply_mono (Nat.le_max_right fuel fuel') happly) herror hunchanged hcompute
        have hfacts : announced (TranscriptStepV1.events ⟨record, .rejected rejection⟩) = [] := rfl
        rw [hfacts, List.append_nil]
        exact hconfirms

/-- A replay that gets through canonical steps has established that they recount the engine's
answers to their actions. -/
theorem recounts_of_replay (hcanonical : ∀ step ∈ steps, ∀ record ∈ step.records, record.Canonical)
    (h : replayFrom compute (applyEngine fuel) ⟨initial, digest, .default⟩ steps = some (.ok next)) :
    ∃ actions, steps.map (fun step => step.action.action.tryIntoCore) = actions.map Except.ok ∧
      Recounts compute initial actions steps next.state ∧
      next = ⟨next.state, lastDigest digest steps, factsOf steps⟩ := by
  induction steps using List.reverseRecOn generalizing next with
  | nil =>
      cases h
      exact ⟨[], rfl, .start, rfl⟩
  | append_singleton steps step ih =>
      obtain ⟨mid, hbefore, hstep⟩ := replayFrom_snoc_ok_iff.mp h
      obtain ⟨action, hread, hconfirms⟩ := replayStep_ok_iff.mp hstep
      obtain ⟨actions, hreads, hrecounts, hmid⟩ :=
        ih (fun s hs => hcanonical s (List.mem_append_left _ hs)) hbefore
      have hlast : ∀ record ∈ step.records, record.Canonical :=
        hcanonical step (List.mem_append_right _ (List.mem_singleton_self step))
      rw [hmid] at hconfirms
      refine ⟨actions ++ [action], ?_, ?_⟩
      · rw [List.map_append, List.map_append, hreads, List.map_singleton, hread]
        rfl
      obtain ⟨record, result⟩ := step
      have haction : record.action = ActionV1.fromCore action := by
        refine (ActionV1.lossless.enc_dec (hlast (.action record) ?_) hread).symm
        cases result <;> exact List.mem_cons_self
      rw [factsOf_snoc, lastDigest_snoc]
      cases hconfirms with
      | @accepted records completion outcome hresult happly hevents hcompleted =>
          cases hresult
          have hwritten := written_of_reads (fun event hevent => hlast (.event event)
            (List.mem_cons_of_mem _ (List.mem_append_left _ (List.mem_map_of_mem hevent)))) hevents
          refine ⟨.accepted hrecounts ⟨fuel, happly⟩ haction hwritten hcompleted, ?_⟩
          rw [← announced_of_written hwritten, ← length_of_written hwritten]
          rfl
      | rejected hresult happly herror hsame hcompute =>
          cases hresult
          refine ⟨.rejected hrecounts happly haction herror (by rw [hsame]; exact hcompute), ?_⟩
          show _ = ReplayState.mk _ _ ⟨_, _, _ ++ []⟩
          rw [List.append_nil]
          rfl

/-! ## The end -/

theorem verifyOutcome_ok_iff {status : GameStatus} {gameEnded : List GameOutcomeV1}
    {outcome : GameOutcomeV1} : verifyOutcome status gameEnded = .ok outcome ↔
      gameEnded = [outcome] ∧ ∃ ended, status = .ended ended ∧ GameOutcomeV1.ofCore ended = outcome := by
  unfold verifyOutcome
  rcases gameEnded with _ | ⟨actual, _ | ⟨second, rest⟩⟩
  · simp
  · cases status with
    | playing => simp
    | broken rule => simp
    | ended ended =>
        simp only [refuse_ok_iff, not_not, Except.ok.injEq, List.cons.injEq, and_true,
          GameStatus.ended.injEq, exists_eq_left']
        constructor
        · rintro ⟨hsame, rfl⟩
          exact ⟨rfl, hsame⟩
        · rintro ⟨rfl, hsame⟩
          exact ⟨hsame, rfl⟩
  · simp

theorem verifyWinnerAndReason_ok_iff {completion : MatchCompletedV1} {outcome : GameOutcomeV1} :
    verifyWinnerAndReason completion outcome = .ok () ↔
      completion.winner = outcome.winner ∧ completion.reason = outcome.reason := by
  unfold verifyWinnerAndReason
  simp only [refuse_ok_iff, not_not, and_true]

/-- The end of a well-formed transcript is confirmed by a state that has its final projection. -/
theorem verifyCompletion_ok_iff {t : TranscriptV1} {outcome : GameOutcomeV1}
    (hwell : t.WellFormed compute outcome) :
    verifyCompletion compute t state (factsOf t.steps) = .ok () ↔
      StateProjectionV1.fromState state = t.finalState.finalState := by
  unfold verifyCompletion
  simp only [refuse_ok_iff, not_not]
  refine and_iff_left_of_imp fun hfinal => ?_
  have hended : ∃ ended, state.status = .ended ended ∧ GameOutcomeV1.ofCore ended = outcome := by
    have hstatus : GameStatusV1.fromCore state.status = .ended outcome := by
      rw [← hwell.final_ended, ← hfinal]
      rfl
    cases hs : state.status with
    | playing =>
        rw [hs] at hstatus
        cases hstatus
    | broken rule =>
        rw [hs] at hstatus
        cases hstatus
    | ended ended =>
        rw [hs] at hstatus
        exact ⟨ended, rfl, GameStatusV1.ended.inj hstatus⟩
  have hannounced : (factsOf t.steps).gameEnded = [outcome] := by
    obtain ⟨before, last, hsteps, hlast, hquiet⟩ := hwell.terminal
    unfold factsOf
    rw [hsteps, List.flatMap_append, List.flatMap_singleton, hlast]
    simp only
    rw [List.flatMap_eq_nil_iff.mpr hquiet, List.nil_append]
  rw [bind_ok_iff]
  refine ⟨outcome, verifyOutcome_ok_iff.mpr ⟨hannounced, hended⟩, ?_⟩
  rw [check_ok_iff]
  refine ⟨verifyWinnerAndReason_ok_iff.mpr ⟨hwell.winner, hwell.reason⟩, ?_⟩
  simp only [refuse_ok_iff, not_not]
  refine ⟨hwell.step_count, hwell.event_count, ?_⟩
  rw [check_ok_iff, verifyDigest_ok_iff, verifyDigest_ok_iff, hfinal, hwell.digest]
  exact ⟨hwell.final_digest, hwell.final_digest⟩

/-! ## A transcript -/

/-- A transcript that the parser can return is verified exactly if its Sets are loaded at their
revisions and its steps recount a match from its initial state to its final one. -/
theorem verifyParsedTranscript_ok_iff {t : TranscriptV1} {outcome : GameOutcomeV1}
    {library : CardLibrary} (hwell : t.WellFormed compute outcome)
    (hcanonical : ∀ record ∈ t.records, record.Canonical) :
    (∃ fuel, verifyParsedTranscript compute fuel t library = some (.ok ())) ↔
      (∀ r ∈ t.matchCreated.requiredSets, library.setRevision r.set = some r.revision) ∧
        ∃ initial actions state,
          t.matchCreated.initialState.intoGameState library.coreCards = .ok initial ∧
          StateProjectionV1.fromState initial = t.matchCreated.initialState ∧
          t.steps.map (fun step => step.action.action.tryIntoCore) = actions.map Except.ok ∧
          Recounts compute initial actions t.steps state ∧
          StateProjectionV1.fromState state = t.finalState.finalState := by
  have hsteps : ∀ step ∈ t.steps, ∀ record ∈ step.records, record.Canonical := by
    intro step hstep record hrecord
    refine hcanonical record ?_
    unfold TranscriptV1.records
    exact List.mem_cons_of_mem _ (List.mem_cons_of_mem _ (List.mem_append_left _
      (List.mem_flatMap.mpr ⟨step, hstep, hrecord⟩)))
  constructor
  · rintro ⟨fuel, h⟩
    unfold verifyParsedTranscript at h
    cases hprepare : prepareInitialStateWith compute t.matchCreated.requiredSets
        t.matchCreated.initialState t.matchCreated.stateDigest library.setRevision
        library.coreCards with
    | error e => simp [hprepare] at h
    | ok initial =>
        obtain ⟨hsets, hinitial, hprojection, -⟩ := prepareInitialStateWith_ok_iff.mp hprepare
        simp only [hprepare, Option.map_eq_some_iff] at h
        obtain ⟨replayed, hreplay, hverify⟩ := h
        obtain ⟨last, rfl, hverify⟩ := bind_ok_iff.mp hverify
        unfold replayStepsWith at hreplay
        cases hdigest : computeDigest compute (StateProjectionV1.fromState initial)
            (.initial "match_created.state_digest") with
        | error e => simp [hdigest] at hreplay
        | ok digest =>
            simp only [hdigest] at hreplay
            obtain ⟨actions, hreads, hrecounts, hlast⟩ := recounts_of_replay hsteps hreplay
            rw [hlast] at hverify
            exact ⟨hsets, initial, actions, last.state, hinitial, hprojection, hreads, hrecounts,
              (verifyCompletion_ok_iff hwell).mp hverify⟩
  · rintro ⟨hsets, initial, actions, state, hinitial, hprojection, -, hrecounts, hfinal⟩
    have hdigest : compute (StateProjectionV1.fromState initial) = .ok t.matchCreated.stateDigest := by
      rw [hprojection]
      exact hwell.initial_digest
    obtain ⟨-, fuel, hreplay⟩ := replays_of_recounts hrecounts hdigest
    refine ⟨fuel, ?_⟩
    unfold verifyParsedTranscript replayStepsWith
    simp only [prepareInitialStateWith_ok_iff.mpr ⟨hsets, hinitial, hprojection, hwell.initial_digest⟩,
      computeDigest_ok_iff.mpr hdigest, hreplay, Option.map_some, ok_bind,
      (verifyCompletion_ok_iff hwell).mpr hfinal]

end

end Replay

end Summoners
