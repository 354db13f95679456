import Summoners.Checked.Journal
import Summoners.Proof.KnownTexts
import Summoners.Proof.Recording

/-! # A recorder that fails closed

A sink may give up at any write or flush and leave a part of what it was given. Every submission
has a plan of the records it writes if nothing fails; what it does write is a part of that plan in
order, the last record perhaps cut short.
-/

namespace Summoners
set_option autoImplicit false

open Checked

/-! ## Sinks -/

/-- What has been written to a sink: a call that succeeds writes all it is given, one that fails a
part of it, and a flush nothing. -/
structure Sink.Journaled {σ : Type} (sink : Sink σ) (written : σ → List UInt8) : Prop where
  writes : ∀ {w bytes w'}, sink.writeAll w bytes = (.ok (), w') → written w' = written w ++ bytes
  givesUp : ∀ {w bytes e w'}, sink.writeAll w bytes = (.error e, w') →
    ∃ part, part <+: bytes ∧ written w' = written w ++ part
  flushes : ∀ w, written (sink.flush w).2 = written w

/-! ## What a method logs -/

section
variable {σ α β : Type} {m m' : RecordedMatch σ}

/-- A method that writes a plan and leaves the match in a state: all of the plan where it succeeds,
a part of it where it fails. -/
structure Logs (serde : Serde) (written : σ → List UInt8) (x : Recording σ α) (m : RecordedMatch σ)
    (state : GameState) (plan : List RecordV1) : Prop where
  ok : ∀ {a m'}, x m = (.ok a, m') → m'.state = state ∧
    m'.nextSequence = m.nextSequence + plan.length ∧
    ∃ bytes, Encodes serde.encodeRecord plan bytes ∧
      written m'.writer = written m.writer ++ bytes
  error : ∀ {e m'}, x m = (.error e, m') → m'.state = state ∧
    ∃ attempted bytes, attempted <+: plan ∧ Torn serde.encodeRecord attempted bytes ∧
      written m'.writer = written m.writer ++ bytes

variable {serde : Serde} {sink : Sink σ} {written : σ → List UInt8} {s : GameState}
  {plan plan' : List RecordV1}

theorem Recording.bind_error_iff {x : Recording σ α} {f : α → Recording σ β} {e : RecordingError} :
    (x >>= f) m = (.error e, m') ↔
      x m = (.error e, m') ∨ ∃ a m₁, x m = (.ok a, m₁) ∧ f a m₁ = (.error e, m') := by
  show Recording.bind x f m = _ ↔ _
  unfold Recording.bind
  split
  · rename_i a m₁ hx
    simp [hx]
  · rename_i e m₁ hx
    simp [hx]

/-- Two methods one after the other. -/
theorem Logs.bind {x : Recording σ α} {f : α → Recording σ β} (hx : Logs serde written x m s plan)
    (hf : ∀ a m₁, x m = (.ok a, m₁) → m₁.state = s → Logs serde written (f a) m₁ s plan') :
    Logs serde written (x >>= f) m s (plan ++ plan') where
  ok h := by
    obtain ⟨a, m₁, h₁, h₂⟩ := Recording.bind_ok_iff.mp h
    obtain ⟨hstate, hnext, bytes, hencodes, hwritten⟩ := hx.ok h₁
    obtain ⟨hstate', hnext', bytes', hencodes', hwritten'⟩ := (hf a m₁ h₁ hstate).ok h₂
    refine ⟨hstate', ?_, bytes ++ bytes', hencodes.append hencodes', ?_⟩
    · rw [hnext', hnext, List.length_append, Nat.add_assoc]
    · rw [hwritten', hwritten, List.append_assoc]
  error h := by
    obtain h₁ | ⟨a, m₁, h₁, h₂⟩ := Recording.bind_error_iff.mp h
    · obtain ⟨hstate, attempted, bytes, hprefix, htorn, hwritten⟩ := hx.error h₁
      exact ⟨hstate, attempted, bytes, hprefix.trans (List.prefix_append _ _), htorn, hwritten⟩
    · obtain ⟨hstate, hnext, bytes, hencodes, hwritten⟩ := hx.ok h₁
      obtain ⟨hstate', attempted, bytes', hprefix, htorn, hwritten'⟩ := (hf a m₁ h₁ hstate).error h₂
      refine ⟨hstate', plan ++ attempted, bytes ++ bytes',
        (List.prefix_append_right_inj plan).mpr hprefix, hencodes.append_torn htorn, ?_⟩
      rw [hwritten', hwritten, List.append_assoc]

/-- The second, or the first, writes nothing. -/
theorem Logs.last {x : Recording σ α} {f : α → Recording σ β} (hx : Logs serde written x m s plan)
    (hf : ∀ a m₁, x m = (.ok a, m₁) → m₁.state = s → Logs serde written (f a) m₁ s []) :
    Logs serde written (x >>= f) m s plan := by
  have hall := hx.bind hf
  rwa [List.append_nil] at hall

theorem Logs.after {x : Recording σ α} {f : α → Recording σ β} (hx : Logs serde written x m s [])
    (hf : ∀ a m₁, x m = (.ok a, m₁) → m₁.state = s → Logs serde written (f a) m₁ s plan) :
    Logs serde written (x >>= f) m s plan :=
  hx.bind hf

/-- A method that writes nothing. -/
theorem Logs.of_silent {x : Recording σ α} (h : ∀ {r m'}, x m = (r, m') → m'.state = s ∧
    m'.nextSequence = m.nextSequence ∧ written m'.writer = written m.writer) :
    Logs serde written x m s [] where
  ok hrun := by
    obtain ⟨hstate, hnext, hwriter⟩ := h hrun
    exact ⟨hstate, hnext, [], .nil, by rw [hwriter, List.append_nil]⟩
  error hrun := by
    obtain ⟨hstate, -, hwriter⟩ := h hrun
    exact ⟨hstate, [], [], List.prefix_refl _, .nil, by rw [hwriter, List.append_nil]⟩

theorem Logs.pure (a : α) (h : m.state = s) :
    Logs serde written (pure a : Recording σ α) m s [] := by
  refine .of_silent fun hrun => ?_
  cases hrun
  exact ⟨h, rfl, rfl⟩

namespace RecordedMatch

theorem logs_this {f : RecordedMatch σ → Recording σ α} (h : Logs serde written (f m) m s plan) :
    Logs serde written (this >>= f) m s plan := ⟨h.ok, h.error⟩

theorem logs_update {g : RecordedMatch σ → RecordedMatch σ} {f : Unit → Recording σ α}
    (hnext : (g m).nextSequence = m.nextSequence) (hwriter : (g m).writer = m.writer)
    (h : Logs serde written (f ()) (g m) s plan) :
    Logs serde written (update g >>= f) m s plan := by
  obtain ⟨hok, herror⟩ := h
  rw [hnext, hwriter] at hok
  rw [hwriter] at herror
  exact ⟨hok, herror⟩

theorem logs_stop {error : RecordingError} (h : m.state = s) :
    Logs serde written (stop error : Recording σ α) m s [] := by
  refine .of_silent fun hrun => ?_
  cases hrun
  exact ⟨h, rfl, rfl⟩

theorem logs_stopWith {reason : RecordingStopped} (h : m.state = s) :
    Logs serde written (stopWith reason : Recording σ α) m s [] := by
  refine .of_silent fun hrun => ?_
  cases hrun
  exact ⟨h, rfl, rfl⟩

theorem logs_flush (hsink : sink.Journaled written) (h : m.state = s) :
    Logs serde written (flush sink) m s [] := by
  refine .of_silent fun hrun => ?_
  have hflush := hsink.flushes m.writer
  unfold flush at hrun
  split at hrun
  · rename_i w hw
    rw [hw] at hflush
    cases hrun
    exact ⟨h, rfl, hflush⟩
  · rename_i e w hw
    rw [hw] at hflush
    cases hrun
    exact ⟨h, rfl, hflush⟩

/-- One record: all of it, or a part and nothing more. -/
theorem logs_append (hsink : sink.Journaled written) (record : RecordV1) (h : m.state = s) :
    Logs serde written (append serde sink record) m s [record] := by
  unfold append
  cases hbytes : serde.encodeRecord record with
  | error e =>
      constructor
      · intro u m' hrun
        cases hrun
      · intro e' m' hrun
        cases hrun
        exact ⟨h, [], [], List.nil_prefix, .nil, (List.append_nil _).symm⟩
  | ok bytes =>
      constructor
      · intro u m' hrun
        obtain ⟨_, m₁, hwrite, hupdate⟩ := Recording.bind_ok_iff.mp hrun
        unfold writeRecord at hwrite
        split at hwrite
        · rename_i w hw
          cases hwrite
          cases hupdate
          exact ⟨h, rfl, bytes, .single hbytes, hsink.writes hw⟩
        · cases hwrite
      · intro e m' hrun
        obtain hwrite | ⟨_, m₁, hwrite, hupdate⟩ := Recording.bind_error_iff.mp hrun
        · unfold writeRecord at hwrite
          split at hwrite
          · cases hwrite
          · rename_i e' w hw
            cases hwrite
            obtain ⟨part, hpart, hwritten⟩ := hsink.givesUp hw
            exact ⟨h, [record], part, List.prefix_refl _, .cut hbytes hpart, hwritten⟩
        · cases hupdate

theorem logs_appendRecords (hsink : sink.Journaled written) (records : List RecordV1)
    (h : m.state = s) : Logs serde written (appendRecords serde sink records) m s records := by
  induction records generalizing m with
  | nil => exact .pure () h
  | cons record records ih =>
      have hall : Logs serde written (appendRecords serde sink (record :: records)) m s
          ([record] ++ records) :=
        (logs_append hsink record h).bind fun _ m₁ _ hstate => ih hstate
      exact hall

/-! ## What a submission logs -/

/-- What these leave as it was. -/
theorem append_ok_frame {record : RecordV1} {u : Unit}
    (h : append serde sink record m = (.ok u, m')) : m'.nextStep = m.nextStep ∧
      m'.totalEvents = m.totalEvents ∧ m'.lifecycle = m.lifecycle := by
  unfold append at h
  cases hbytes : serde.encodeRecord record with
  | error e =>
      rw [hbytes] at h
      cases h
  | ok bytes =>
      rw [hbytes] at h
      obtain ⟨_, m₁, hwrite, hupdate⟩ := Recording.bind_ok_iff.mp h
      unfold writeRecord at hwrite
      split at hwrite
      · cases hwrite
        cases hupdate
        exact ⟨rfl, rfl, rfl⟩
      · cases hwrite

theorem appendRecords_ok_frame {records : List RecordV1} {u : Unit}
    (h : appendRecords serde sink records m = (.ok u, m')) : m'.nextStep = m.nextStep ∧
      m'.totalEvents = m.totalEvents ∧ m'.lifecycle = m.lifecycle := by
  induction records generalizing m with
  | nil =>
      cases h
      exact ⟨rfl, rfl, rfl⟩
  | cons record records ih =>
      obtain ⟨_, m₁, hfirst, hrest⟩ := Recording.bind_ok_iff.mp h
      obtain ⟨hstep, htotal, hlifecycle⟩ := append_ok_frame hfirst
      rw [← hstep, ← htotal, ← hlifecycle]
      exact ih hrest

theorem flush_ok_frame {u : Unit} (h : flush sink m = (.ok u, m')) :
    m' = { m with writer := m'.writer } := by
  unfold flush at h
  split at h
  · cases h
    rfl
  · cases h

/-- The records that complete a match at its end. -/
def plannedCompletion (sequence steps events : ℕ) (outcome : ActionOutcome)
    (digest : StateDigestV1) : List RecordV1 :=
  match checkTerminalEvents outcome.state.status outcome.events with
  | .ok (some ended) => prepareCompletion ⟨sequence, steps, events⟩ ended
      (StateProjectionV1.fromState outcome.state) digest
  | _ => []

/-- The records of an accepted action behind the action's own. -/
def plannedAccepted (serde : Serde) (sequence step steps events : ℕ) (outcome : ActionOutcome) :
    List RecordV1 :=
  match serde.compute (StateProjectionV1.fromState outcome.state) with
  | .error _ => []
  | .ok digest => prepareAcceptedStep sequence step outcome.events digest ++
      plannedCompletion (sequence + (outcome.events.length + 1)) steps
        (events + outcome.events.length) outcome digest

/-- The record of a rejected action behind the action's own. -/
def plannedRejected (serde : Serde) (sequence step : ℕ) (state : GameState) (error : ActionError) :
    List RecordV1 :=
  match serde.compute (StateProjectionV1.fromState state) with
  | .error _ => []
  | .ok digest => [prepareRejectedStep sequence step error digest]

theorem logs_completeEndedMatch (hsink : sink.Journaled written) (h : m.state = s)
    (outcome : GameOutcome) (projection : StateProjectionV1) (digest : StateDigestV1) :
    Logs serde written (completeEndedMatch serde sink outcome projection digest) m s
      (prepareCompletion ⟨m.nextSequence, m.nextStep - 1, m.totalEvents⟩ outcome projection
        digest) := by
  unfold completeEndedMatch
  refine logs_this ((logs_appendRecords hsink _ h).last fun _ m₁ _ hstate =>
    (logs_flush hsink hstate).last fun _ m₂ _ hstate => .of_silent fun hrun => ?_)
  cases hrun
  exact ⟨hstate, rfl, rfl⟩

theorem logs_recordAcceptedStep (hsink : sink.Journaled written) (step : ℕ)
    (outcome : ActionOutcome) :
    Logs serde written (recordAcceptedStep serde sink step outcome) m outcome.state
      (plannedAccepted serde m.nextSequence step (m.nextStep - 1) m.totalEvents outcome) := by
  unfold recordAcceptedStep
  refine logs_update rfl rfl ?_
  unfold plannedAccepted computeDigest
  cases hdigest : serde.compute (StateProjectionV1.fromState outcome.state) with
  | error e =>
      simp only [hdigest]
      exact Logs.after (logs_stop rfl) fun _ m₁ hrun _ => by cases hrun
  | ok digest =>
      simp only [hdigest]
      refine Logs.after (.pure digest rfl) fun a m₁ hrun _ => ?_
      cases hrun
      refine logs_this (Logs.bind (logs_appendRecords hsink _ rfl) fun _ m₁ happend hstate => ?_)
      obtain ⟨hstep, htotal, -⟩ := appendRecords_ok_frame happend
      obtain ⟨-, hnext, -⟩ := (logs_appendRecords hsink _ rfl).ok happend
      refine Logs.after (logs_flush hsink hstate) fun _ m₂ hflush hstate => ?_
      rw [flush_ok_frame hflush] at hstate ⊢
      refine logs_update rfl rfl ?_
      unfold plannedCompletion
      cases hcheck : checkTerminalEvents outcome.state.status outcome.events with
      | error e => exact logs_stopWith hstate
      | ok ended =>
          cases ended with
          | some ended =>
              refine Logs.last ?_ fun _ m₃ _ hstate => .pure _ hstate
              have hlength : (prepareAcceptedStep m.nextSequence step outcome.events
                  digest).length = outcome.events.length + 1 := by
                simp [prepareAcceptedStep]
              rw [hlength] at hnext
              simp only at hstep htotal hnext ⊢
              rw [← hnext, ← hstep, ← htotal]
              refine logs_completeEndedMatch hsink ?_ ended _ digest
              exact hstate
          | none =>
              simp only
              split
              · exact logs_stopWith hstate
              · exact .pure _ hstate

theorem logs_recordRejectedStep (hsink : sink.Journaled written) (step : ℕ) (error : ActionError) :
    Logs serde written (recordRejectedStep serde sink step error) m m.state
      (plannedRejected serde m.nextSequence step m.state error) := by
  unfold recordRejectedStep
  refine logs_this ?_
  unfold plannedRejected computeDigest
  cases hdigest : serde.compute (StateProjectionV1.fromState m.state) with
  | error e =>
      simp only
      exact Logs.after (logs_stop rfl) fun _ m₁ hrun _ => by cases hrun
  | ok digest =>
      simp only
      refine Logs.after (.pure digest rfl) fun a m₁ hrun _ => ?_
      cases hrun
      exact Logs.last (logs_append hsink _ rfl) fun _ m₁ _ hstate =>
        Logs.last (logs_flush hsink hstate) fun _ m₂ _ hstate => .pure _ hstate

/-- The records of an answer behind the action's own. -/
def plannedAnswer (serde : Serde) (sequence step steps events : ℕ) (state : GameState) :
    Except ActionError ActionOutcome → List RecordV1
  | .ok outcome => plannedAccepted serde sequence step steps events outcome
  | .error error => plannedRejected serde sequence step state error

/-- All records of one submission, if nothing fails. -/
def planned (serde : Serde) (m : RecordedMatch σ) (action : GameAction)
    (answer : Except ActionError ActionOutcome) : List RecordV1 :=
  prepareAction m.nextSequence m.nextStep action ::
    plannedAnswer serde (m.nextSequence + 1) m.nextStep m.nextStep m.totalEvents m.state answer

/-- The state after an answer. -/
def stateAfter (m : RecordedMatch σ) : Except ActionError ActionOutcome → GameState
  | .ok outcome => outcome.state
  | .error _ => m.state

/-- The part of its plan a submission has written. -/
structure Attempt (serde : Serde) (written : σ → List UInt8) (m : RecordedMatch σ)
    (action : GameAction) (answer : Except ActionError ActionOutcome) (attempted : List RecordV1)
    (m' : RecordedMatch σ) : Prop where
  part : attempted <+: planned serde m action answer
  torn : ∃ bytes, Torn serde.encodeRecord attempted bytes ∧
    written m'.writer = written m.writer ++ bytes
  state : attempted.length ≤ 1 ∨ m'.state = m.stateAfter answer
  whole : m'.lifecycle = .active → attempted = planned serde m action answer ∧
    m'.nextSequence = m.nextSequence + (planned serde m action answer).length ∧
    ∃ bytes, Encodes serde.encodeRecord attempted bytes ∧
      written m'.writer = written m.writer ++ bytes

/-- The method behind the action's own record. -/
def recordAnswer (serde : Serde) (sink : Sink σ) (step : ℕ) :
    Except ActionError ActionOutcome → Recording σ RecordedStep
  | .ok outcome => recordAcceptedStep serde sink step outcome
  | .error error => recordRejectedStep serde sink step error

/-- A recording that has stopped refuses every submission, whatever the engine would answer. -/
theorem submitWith_stopped {reason : RecordingStopped} (h : m.lifecycle = .stopped reason)
    (action : GameAction) (answer : Except ActionError ActionOutcome) :
    submitWith serde sink action answer m = (.error (.stopped reason), m) := by
  have hensure : (ensureActive : Recording σ Unit) m = (.error (.stopped reason), m) := by
    unfold ensureActive
    rw [h]
  show Recording.bind ensureActive _ m = _
  unfold Recording.bind
  rw [hensure]

theorem submitWith_active {action : GameAction} {answer : Except ActionError ActionOutcome}
    (hactive : m.lifecycle = .active) : submitWith serde sink action answer m =
      (append serde sink (prepareAction m.nextSequence m.nextStep action) >>= fun _ =>
        update (fun m => { m with nextStep := m.nextStep + 1 }) >>= fun _ =>
          recordAnswer serde sink m.nextStep answer) m := by
  have hensure : (ensureActive : Recording σ Unit) m = (.ok (), m) := by
    unfold ensureActive
    rw [hactive]
  show Recording.bind ensureActive _ m = _
  unfold Recording.bind
  rw [hensure]
  cases answer with
  | ok outcome => rfl
  | error error => rfl

/-- The answer's records behind the action's. -/
theorem logs_recordAnswer (hsink : sink.Journaled written) (step : ℕ)
    (answer : Except ActionError ActionOutcome) :
    Logs serde written (recordAnswer serde sink step answer) m (m.stateAfter answer)
      (plannedAnswer serde m.nextSequence step (m.nextStep - 1) m.totalEvents m.state answer) := by
  cases answer with
  | ok outcome => exact logs_recordAcceptedStep hsink step outcome
  | error error => exact logs_recordRejectedStep hsink step error

theorem submitWith_attempt (hsink : sink.Journaled written) {action : GameAction}
    {answer : Except ActionError ActionOutcome} {r : Except RecordingError RecordedStep}
    (hactive : m.lifecycle = .active) (h : submitWith serde sink action answer m = (r, m')) :
    ∃ attempted, Attempt serde written m action answer attempted m' := by
  have hstops := stops_submitWith serde sink action answer
  have hinactive : ∀ e, r = .error e → m'.lifecycle ≠ .active := by
    rintro e rfl
    exact hstops.inactive m e m' h
  rw [submitWith_active hactive] at h
  have hfirst : Logs serde written
      (append serde sink (prepareAction m.nextSequence m.nextStep action)) m m.state
      [prepareAction m.nextSequence m.nextStep action] := logs_append hsink _ rfl
  -- what follows an append that succeeds
  have hsecond : ∀ {u m₁}, append serde sink (prepareAction m.nextSequence m.nextStep action) m =
      (.ok u, m₁) → m₁.nextSequence = m.nextSequence + 1 ∧
      Logs serde written (recordAnswer serde sink m.nextStep answer)
        { m₁ with nextStep := m₁.nextStep + 1 } (m.stateAfter answer)
        (plannedAnswer serde (m.nextSequence + 1) m.nextStep m.nextStep m.totalEvents m.state
          answer) := by
    intro u m₁ happend
    obtain ⟨hstep, htotal, -⟩ := append_ok_frame happend
    obtain ⟨hstate, hnext, -⟩ := hfirst.ok happend
    have hafter : ({ m₁ with nextStep := m₁.nextStep + 1 } : RecordedMatch σ).stateAfter answer =
        m.stateAfter answer := by
      cases answer with
      | ok outcome => rfl
      | error error => exact hstate
    have hplan : plannedAnswer serde m₁.nextSequence m.nextStep (m₁.nextStep + 1 - 1)
        m₁.totalEvents m₁.state answer = plannedAnswer serde (m.nextSequence + 1) m.nextStep
          m.nextStep m.totalEvents m.state answer := by
      rw [hnext, hstep, htotal, hstate, Nat.add_sub_cancel, List.length_singleton]
    rw [← hafter, ← hplan]
    exact ⟨hnext, logs_recordAnswer hsink m.nextStep answer⟩
  cases r with
  | error e =>
      obtain happend | ⟨_, m₁, happend, hrest⟩ := Recording.bind_error_iff.mp h
      · obtain ⟨-, attempted, bytes, hprefix, htorn, hwritten⟩ := hfirst.error happend
        refine ⟨attempted, hprefix.trans ?_, ⟨bytes, htorn, hwritten⟩, .inl hprefix.length_le,
          fun hopen => absurd hopen (hinactive e rfl)⟩
        exact List.prefix_append [_] _
      · obtain ⟨-, -, bytes, hencodes, hwritten⟩ := hfirst.ok happend
        obtain ⟨-, hlogs⟩ := hsecond happend
        obtain ⟨hstate, attempted, bytes', hprefix, htorn, hwritten'⟩ := hlogs.error hrest
        refine ⟨[prepareAction m.nextSequence m.nextStep action] ++ attempted,
          (List.prefix_append_right_inj _).mpr hprefix,
          ⟨bytes ++ bytes', hencodes.append_torn htorn, ?_⟩, .inr hstate,
          fun hopen => absurd hopen (hinactive e rfl)⟩
        rw [hwritten', hwritten, List.append_assoc]
  | ok r =>
      obtain ⟨_, m₁, happend, hrest⟩ := Recording.bind_ok_iff.mp h
      obtain ⟨-, -, bytes, hencodes, hwritten⟩ := hfirst.ok happend
      obtain ⟨hnext, hlogs⟩ := hsecond happend
      obtain ⟨hstate, hlast, bytes', hencodes', hwritten'⟩ := hlogs.ok hrest
      have hall : written m'.writer = written m.writer ++ (bytes ++ bytes') := by
        rw [hwritten', hwritten, List.append_assoc]
      have hplan := hencodes.append hencodes'
      refine ⟨planned serde m action answer, List.prefix_refl _, ⟨_, hplan.torn, hall⟩,
        .inr hstate, fun _ => ⟨rfl, ?_, _, hplan, hall⟩⟩
      rw [hlast, planned, List.length_cons]
      show m₁.nextSequence + _ = _
      omega

/-! ## What a submission returns -/

theorem recordAcceptedStep_returns {step : ℕ} {outcome : ActionOutcome} {r : RecordedStep}
    (h : recordAcceptedStep serde sink step outcome m = (.ok r, m')) :
    r = .accepted outcome.events ∧
      (endedEvents outcome.events ≠ [] → m'.lifecycle ≠ .active) := by
  simp only [recordAcceptedStep, Recording.bind_ok_iff, update_ok_iff, this_ok_iff] at h
  obtain ⟨-, _, -, digest, _, -, _, _, -, -, _, -, -, _, -, -, _, -, h⟩ := h
  cases hcheck : checkTerminalEvents outcome.state.status outcome.events with
  | error e =>
      rw [hcheck] at h
      cases h
  | ok ended =>
      rw [hcheck] at h
      obtain ⟨b, hstatus, rfl⟩ | ⟨hstatus, hevents, rfl⟩ | ⟨o, hstatus, hevents, rfl⟩ :=
        checkTerminalEvents_ok hcheck
      · simp only [hstatus] at h
        cases h
      · simp only [hstatus] at h
        cases h
        exact ⟨rfl, fun hne => absurd hevents hne⟩
      · simp only [completeEndedMatch, Recording.bind_ok_iff, update_ok_iff, this_ok_iff] at h
        obtain ⟨-, _, ⟨_, _, -, _, _, -, -, _, -, rfl⟩, h⟩ := h
        cases h
        exact ⟨rfl, fun _ hactive => by cases hactive⟩

theorem recordRejectedStep_returns {step : ℕ} {error : ActionError} {r : RecordedStep}
    (h : recordRejectedStep serde sink step error m = (.ok r, m')) : r = .rejected error := by
  simp only [recordRejectedStep, Recording.bind_ok_iff] at h
  obtain ⟨_, _, -, _, _, -, -, _, -, -, _, -, h⟩ := h
  cases h
  rfl

/-- What `submit` returns when it succeeds, and the state it leaves. -/
theorem submitWith_returns (hsink : sink.Journaled written) {action : GameAction}
    {answer : Except ActionError ActionOutcome} {r : RecordedStep}
    (h : submitWith serde sink action answer m = (.ok r, m')) : m.lifecycle = .active ∧
      ((∃ error, answer = .error error ∧ r = .rejected error ∧ m'.state = m.state) ∨
        ∃ outcome, answer = .ok outcome ∧ r = .accepted outcome.events ∧
          m'.state = outcome.state ∧
          (endedEvents outcome.events ≠ [] → m'.lifecycle ≠ .active)) := by
  have hactive : m.lifecycle = .active := by
    obtain ⟨_, m₁, hensure, -⟩ := Recording.bind_ok_iff.mp h
    exact (ensureActive_ok_iff.mp hensure).1
  refine ⟨hactive, ?_⟩
  rw [submitWith_active hactive] at h
  obtain ⟨_, m₁, happend, hrest⟩ := Recording.bind_ok_iff.mp h
  obtain ⟨hstate, -⟩ := (logs_append hsink _ rfl).ok happend
  obtain ⟨_, m₂, hupdate, hanswer⟩ := Recording.bind_ok_iff.mp hrest
  cases hupdate
  obtain ⟨hafter, -⟩ := (logs_recordAnswer hsink m.nextStep answer).ok hanswer
  cases answer with
  | error error => exact .inl ⟨error, rfl, recordRejectedStep_returns hanswer, hafter.trans hstate⟩
  | ok outcome =>
      obtain ⟨hreturns, hended⟩ := recordAcceptedStep_returns hanswer
      exact .inr ⟨outcome, rfl, hreturns, hafter, hended⟩

/-! ## The plan -/

/-- The plan of an accepted action is its step, and the completion if the match has ended. -/
theorem planned_accepted {action : GameAction} {outcome : ActionOutcome} {digest : StateDigestV1}
    (hdigest : serde.compute (StateProjectionV1.fromState outcome.state) = .ok digest) :
    planned serde m action (.ok outcome) =
      (acceptedStep m.nextSequence m.nextStep action digest outcome.events).records ++
        plannedCompletion (m.nextSequence + (outcome.events.length + 2)) m.nextStep
          (m.totalEvents + outcome.events.length) outcome digest := by
  rw [records_acceptedStep]
  simp only [planned, plannedAnswer, plannedAccepted, hdigest, List.cons_append]
  congr 3
  omega

/-- The records of a plan carry the numbers that follow. -/
theorem planned_sequences (action : GameAction) (answer : Except ActionError ActionOutcome) :
    (planned serde m action answer).map recordSequence =
      List.range' m.nextSequence (planned serde m action answer).length := by
  cases answer with
  | error error =>
      simp only [planned, plannedAnswer, plannedRejected]
      split <;> rfl
  | ok outcome =>
      cases hdigest : serde.compute (StateProjectionV1.fromState outcome.state) with
      | error e =>
          simp only [planned, plannedAnswer, plannedAccepted, hdigest]
          rfl
      | ok digest =>
          have hcompletion : (plannedCompletion (m.nextSequence + (outcome.events.length + 2))
              m.nextStep (m.totalEvents + outcome.events.length) outcome digest).map
                recordSequence = List.range' (m.nextSequence + (outcome.events.length + 2))
                  (plannedCompletion (m.nextSequence + (outcome.events.length + 2)) m.nextStep
                    (m.totalEvents + outcome.events.length) outcome digest).length := by
            unfold plannedCompletion
            split <;> rfl
          rw [planned_accepted hdigest, List.map_append, sequences_acceptedStep, hcompletion,
            List.length_append, length_records_acceptedStep, List.range'_append_1]

/-- A record that a match is completed with. -/
def Completes (record : RecordV1) : Prop := ∃ completed, record = .matchCompleted completed

theorem not_completes_acceptedStep {sequence step : ℕ} {action : GameAction}
    {digest : StateDigestV1} {events : List GameEvent} :
    ∀ record ∈ (acceptedStep sequence step action digest events).records, ¬Completes record := by
  rw [records_acceptedStep]
  intro record hmem
  simp only [prepareAcceptedStep, List.mem_cons, List.mem_append, List.mem_mapIdx,
    List.not_mem_nil, or_false] at hmem
  rintro ⟨completed, rfl⟩
  obtain hmem | ⟨i, hi, hmem⟩ | hmem := hmem <;> cases hmem

/-- A plan with such a record is that of an action that ended the match, and ends with it. -/
theorem completes_of_planned {action : GameAction} {answer : Except ActionError ActionOutcome}
    {attempted : List RecordV1} {completed : MatchCompletedV1}
    (hpart : attempted <+: planned serde m action answer)
    (hmem : .matchCompleted completed ∈ attempted) :
    ∃ outcome digest ended final, answer = .ok outcome ∧ outcome.state.status = .ended ended ∧
      endedEvents outcome.events = [ended] ∧ completed.winner = PlayerIdV1.ofCore ended.winner ∧
      completed.reason = LossReasonV1.ofCore ended.reason ∧
      attempted = (acceptedStep m.nextSequence m.nextStep action digest outcome.events).records ++
        [.finalState final, .matchCompleted completed] := by
  have hnone : (∀ r ∈ planned serde m action answer, ¬Completes r) → False :=
    fun h => h _ (hpart.mem hmem) ⟨completed, rfl⟩
  cases answer with
  | error error =>
      refine (hnone fun r hr => ?_).elim
      simp only [planned, plannedAnswer, plannedRejected, List.mem_cons] at hr
      rintro ⟨c, rfl⟩
      split at hr <;> simp [prepareAction, prepareRejectedStep] at hr
  | ok outcome =>
      cases hdigest : serde.compute (StateProjectionV1.fromState outcome.state) with
      | error e =>
          refine (hnone fun r hr => ?_).elim
          simp only [planned, plannedAnswer, plannedAccepted, hdigest, List.mem_singleton] at hr
          rintro ⟨c, rfl⟩
          cases hr
      | ok digest =>
          rw [planned_accepted hdigest] at hpart hnone
          unfold plannedCompletion at hpart hnone
          cases hcheck : checkTerminalEvents outcome.state.status outcome.events with
          | error e =>
              rw [hcheck] at hnone
              refine (hnone fun r hr => ?_).elim
              rw [List.append_nil] at hr
              exact not_completes_acceptedStep r hr
          | ok ended =>
              cases ended with
              | none =>
                  rw [hcheck] at hnone
                  refine (hnone fun r hr => ?_).elim
                  rw [List.append_nil] at hr
                  exact not_completes_acceptedStep r hr
              | some ended =>
                  rw [hcheck] at hpart
                  obtain ⟨b, -, hcon⟩ | ⟨-, -, hcon⟩ | ⟨o, hstatus, hevents, heq⟩ :=
                    checkTerminalEvents_ok hcheck
                  · cases hcon
                  · cases hcon
                  · cases heq
                    simp only [prepareCompletion] at hpart
                    rw [← List.singleton_append, ← List.append_assoc] at hpart
                    obtain ⟨hwhole, hlast⟩ := eq_of_mem_of_prefix (P := Completes) hpart
                      (fun r hr => by
                        rcases List.mem_append.mp hr with hr | hr
                        · exact not_completes_acceptedStep r hr
                        · rintro ⟨c, rfl⟩
                          simp at hr) hmem ⟨completed, rfl⟩
                    cases hlast
                    refine ⟨outcome, digest, ended,
                      ⟨m.nextSequence + (outcome.events.length + 2),
                        StateProjectionV1.fromState outcome.state, digest⟩,
                      rfl, hstatus, hevents, rfl, rfl, ?_⟩
                    rw [hwhole, List.append_assoc]
                    rfl

/-- A submission that completes the match stops the recording. -/
theorem Attempt.not_completes_of_active {action : GameAction}
    {answer : Except ActionError ActionOutcome} {attempted : List RecordV1}
    {r : Except RecordingError RecordedStep}
    (h : Attempt serde written m action answer attempted m') (hsink : sink.Journaled written)
    (hsubmit : submitWith serde sink action answer m = (r, m')) (hactive : m'.lifecycle = .active)
    {completed : MatchCompletedV1} : .matchCompleted completed ∉ attempted := by
  intro hmem
  obtain ⟨outcome, digest, ended, final, rfl, -, hevents, -, -, -⟩ := completes_of_planned h.part hmem
  cases r with
  | error e => exact (stops_submitWith serde sink action _).inactive m e m' hsubmit hactive
  | ok step =>
      obtain ⟨-, ⟨error, hcon, -⟩ | ⟨outcome', heq, -, -, hstopped⟩⟩ :=
        submitWith_returns hsink hsubmit
      · cases hcon
      · cases heq
        exact hstopped (by simp [hevents]) hactive

end RecordedMatch

/-! ## Whole recordings -/

/-- A log with a record that completes the match: only the last one does, right behind the step
that ended it, whose events announce that outcome once. -/
def CompletedOnce (state : GameState) (log : List RecordV1) (completed : MatchCompletedV1) : Prop :=
  ∃ front sequence step action digest final before outcome ended,
    log = front ++ (acceptedStep sequence step action digest outcome.events).records ++
      [.finalState final, .matchCompleted completed] ∧
    (∀ c, .matchCompleted c ∉
      front ++ (acceptedStep sequence step action digest outcome.events).records) ∧
    Accepted before action outcome ∧ state = outcome.state ∧
    outcome.state.status = .ended ended ∧ endedEvents outcome.events = [ended] ∧
    completed.winner = PlayerIdV1.ofCore ended.winner ∧
    completed.reason = LossReasonV1.ofCore ended.reason

/-- What the sink holds after some submissions, behind what it held before. -/
structure Journal (serde : Serde) (written : σ → List UInt8) (before : List UInt8)
    (m : RecordedMatch σ) (log : List RecordV1) : Prop where
  torn : ∃ bytes, Torn serde.encodeRecord log bytes ∧ written m.writer = before ++ bytes
  sequences : log.map recordSequence = List.range log.length
  completed : ∀ c, .matchCompleted c ∈ log → CompletedOnce m.state log c
  active : m.lifecycle = .active → (∀ c, .matchCompleted c ∉ log) ∧ m.nextSequence = log.length ∧
    ∃ bytes, Encodes serde.encodeRecord log bytes ∧ written m.writer = before ++ bytes

variable {before : List UInt8} {log : List RecordV1}

theorem journal_start (hsink : sink.Journaled written) {writer : σ}
    {metadata : List (String × JsonValue)} {requiredSets : List SetRequirementV1}
    {initial : GameState}
    (h : RecordedMatch.start serde sink writer metadata requiredSets initial = .ok m) :
    m.state = initial ∧ ∃ log, Journal serde written (written writer) m log := by
  simp only [RecordedMatch.start, prepareStart, bind_ok_iff, mapError_ok_iff, pure_ok_iff] at h
  obtain ⟨_, -, ⟨headerRecord, createdRecord⟩, ⟨digest, -, heq⟩, header, hheader, created, hcreated,
    h⟩ := h
  cases heq
  cases hw₁ : sink.writeAll writer header with
  | mk wrote w₁ =>
  cases hw₂ : sink.writeAll w₁ created with
  | mk wrote' w₂ =>
  cases hw₃ : sink.flush w₂ with
  | mk flushed w₃ =>
      simp only [hw₁, hw₂, hw₃] at h
      obtain ⟨_, rfl, _, rfl, _, rfl, rfl⟩ := h
      have hflush := hsink.flushes w₂
      rw [hw₃] at hflush
      have hencodes := (Encodes.single hheader).append (Encodes.single hcreated)
      have hwritten : written w₃ = written writer ++ (header ++ created) := by
        rw [hflush, hsink.writes hw₂, hsink.writes hw₁, List.append_assoc]
      refine ⟨rfl, _, ⟨_, hencodes.torn, hwritten⟩, rfl, ?_,
        fun _ => ⟨?_, rfl, _, hencodes, hwritten⟩⟩
      · intro c hc
        simp at hc
      · intro c hc
        simp at hc

/-- One more submission adds the part of its plan that it has written. -/
theorem Journal.submit (h : Journal serde written before m log) (hsink : sink.Journaled written)
    {action : GameAction} {r : Except RecordingError RecordedStep}
    (hs : m.Submit serde sink action r m') : ∃ log', Journal serde written before m' log' := by
  obtain ⟨answer, hasked, hsubmit⟩ := hs
  cases hlifecycle : m.lifecycle with
  | stopped reason =>
      rw [RecordedMatch.submitWith_stopped hlifecycle] at hsubmit
      cases hsubmit
      exact ⟨log, h⟩
  | active =>
      obtain ⟨attempted, hattempt⟩ := RecordedMatch.submitWith_attempt hsink hlifecycle hsubmit
      obtain ⟨hnone, hnext, bytes, hencodes, hwritten⟩ := h.active hlifecycle
      obtain ⟨bytes', htorn, hwritten'⟩ := hattempt.torn
      have hcompleted : ∀ c, .matchCompleted c ∈ attempted →
          CompletedOnce m'.state (log ++ attempted) c := by
        intro c hc
        obtain ⟨outcome, digest, ended, final, rfl, hstatus, hevents, hwinner, hreason, hall⟩ :=
          RecordedMatch.completes_of_planned hattempt.part hc
        obtain ⟨fuel, happly⟩ := hasked hlifecycle
        have hstate : m'.state = outcome.state := by
          refine hattempt.state.resolve_left fun hshort => ?_
          rw [hall, List.length_append] at hshort
          simp at hshort
        refine ⟨log, m.nextSequence, m.nextStep, action, digest, final, m.state, outcome, ended, ?_,
          fun c' hc' => ?_, ⟨fuel, happly⟩, hstate, hstatus, hevents, hwinner, hreason⟩
        · rw [hall, List.append_assoc]
        · rcases List.mem_append.mp hc' with hc' | hc'
          · exact hnone c' hc'
          · exact RecordedMatch.not_completes_acceptedStep _ hc' ⟨c', rfl⟩
      refine ⟨log ++ attempted, ⟨bytes ++ bytes', hencodes.append_torn htorn, ?_⟩, ?_, ?_, ?_⟩
      · rw [hwritten', hwritten, List.append_assoc]
      · obtain ⟨rest, hplan⟩ := hattempt.part
        have hsequences : (RecordedMatch.planned serde m action answer).map recordSequence =
            List.range' m.nextSequence (RecordedMatch.planned serde m action answer).length :=
          RecordedMatch.planned_sequences action answer
        rw [← hplan, List.map_append, List.length_append, ← List.range'_append_1] at hsequences
        have hattempted := (List.append_inj hsequences (by simp)).1
        rw [List.map_append, h.sequences, hattempted, hnext, List.length_append,
          List.range_eq_range', List.range_eq_range', ← List.range'_append_1, Nat.zero_add]
      · intro c hc
        rcases List.mem_append.mp hc with hc | hc
        · exact absurd hc (hnone c)
        · exact hcompleted c hc
      · intro hopen
        obtain ⟨hall, hlast, bytes'', hencodes', hwritten''⟩ := hattempt.whole hopen
        refine ⟨fun c hc => ?_, ?_, bytes ++ bytes'', hencodes.append hencodes', ?_⟩
        · rcases List.mem_append.mp hc with hc | hc
          · exact hnone c hc
          · exact hattempt.not_completes_of_active hsink hsubmit hopen hc
        · rw [hlast, hnext, List.length_append, hall]
        · rw [hwritten'', hwritten, List.append_assoc]

theorem Journal.submits {m₀ : RecordedMatch σ} {actions : List GameAction}
    {results : List (Except RecordingError RecordedStep)}
    (h : Journal serde written before m₀ log) (hsink : sink.Journaled written)
    (hrun : m₀.Submits serde sink actions results m) :
    ∃ log, Journal serde written before m log := by
  induction hrun with
  | nil => exact ⟨log, h⟩
  | snoc _ hs ih =>
      obtain ⟨log', h'⟩ := ih
      exact h'.submit hsink hs

/-- What a submission returns that closes the recording: an error, or the end of the match. -/
def Closes (r : Except RecordingError RecordedStep) : Prop :=
  (∃ e, r = .error e) ∨ ∃ events, r = .ok (.accepted events) ∧ endedEvents events ≠ []

/-- One submission closes the recording, or leaves a closed one as it is. -/
theorem closed_submit (hsink : sink.Journaled written) {action : GameAction}
    {r : Except RecordingError RecordedStep} (hs : m.Submit serde sink action r m')
    (h : m.lifecycle ≠ .active ∨ Closes r) : m'.lifecycle ≠ .active := by
  obtain ⟨answer, -, hsubmit⟩ := hs
  cases hlifecycle : m.lifecycle with
  | stopped reason =>
      rw [RecordedMatch.submitWith_stopped hlifecycle] at hsubmit
      cases hsubmit
      simp [hlifecycle]
  | active =>
      obtain ⟨e, rfl⟩ | ⟨events, rfl, hended⟩ := h.resolve_left (by simp [hlifecycle])
      · exact (RecordedMatch.stops_submitWith serde sink action answer).inactive m e m' hsubmit
      · obtain ⟨-, ⟨error, -, hcon, -⟩ | ⟨outcome, -, heq, -, hstopped⟩⟩ :=
          RecordedMatch.submitWith_returns hsink hsubmit
        · cases hcon
        · cases heq
          exact hstopped hended

theorem closed_submits {m₀ : RecordedMatch σ} {actions : List GameAction}
    {results : List (Except RecordingError RecordedStep)} (hsink : sink.Journaled written)
    (hrun : m₀.Submits serde sink actions results m) (h : ∃ r ∈ results, Closes r) :
    m.lifecycle ≠ .active := by
  induction hrun with
  | nil =>
      obtain ⟨r, hr, -⟩ := h
      cases hr
  | snoc _ hs ih =>
      obtain ⟨r, hr, hcloses⟩ := h
      rcases List.mem_append.mp hr with hr | hr
      · exact closed_submit hsink hs (.inl (ih ⟨r, hr, hcloses⟩))
      · rw [List.mem_singleton] at hr
        exact closed_submit hsink hs (.inr (hr ▸ hcloses))

end

theorem recorder_fails_closed {σ : Type} (serde : Serde) (sink : Sink σ) (written : σ → List UInt8)
    (writer : σ) (metadata : List (String × JsonValue)) (requiredSets : List SetRequirementV1)
    (initial : GameState) (m₀ m : RecordedMatch σ) (actions : List GameAction)
    (results : List (Except RecordingError RecordedStep)) (hsink : sink.Journaled written)
    (hstart : RecordedMatch.start serde sink writer metadata requiredSets initial = .ok m₀)
    (hrun : m₀.Submits serde sink actions results m) :
    (∃ log bytes, Torn serde.encodeRecord log bytes ∧
        written m.writer = written writer ++ bytes ∧
        log.map recordSequence = List.range log.length ∧
        ∀ completed, .matchCompleted completed ∈ log → CompletedOnce m.state log completed) ∧
      ((∃ r ∈ results, Closes r) → ∃ reason, ∀ action answer,
        RecordedMatch.submitWith serde sink action answer m = (.error (.stopped reason), m)) ∧
      ∀ action r m', m.Submit serde sink action r m' →
        (∀ error, r = .ok (.rejected error) → m'.state = m.state) ∧
        ∀ events, r = .ok (.accepted events) → ∃ outcome, Accepted m.state action outcome ∧
          events = outcome.events ∧ m'.state = outcome.state := by
  obtain ⟨-, log₀, hopen⟩ := journal_start hsink hstart
  obtain ⟨log, hjournal⟩ := hopen.submits hsink hrun
  obtain ⟨bytes, htorn, hwritten⟩ := hjournal.torn
  refine ⟨⟨log, bytes, htorn, hwritten, hjournal.sequences, hjournal.completed⟩, fun hclosed => ?_,
    fun action r m' hs => ?_⟩
  · have hstopped := closed_submits hsink hrun hclosed
    cases hlifecycle : m.lifecycle with
    | active => exact absurd hlifecycle hstopped
    | stopped reason =>
        exact ⟨reason, fun action answer => RecordedMatch.submitWith_stopped hlifecycle action answer⟩
  · obtain ⟨answer, hasked, hsubmit⟩ := hs
    constructor
    · rintro error rfl
      obtain ⟨-, ⟨_, -, -, hstate⟩ | ⟨_, -, hcon, -⟩⟩ :=
        RecordedMatch.submitWith_returns hsink hsubmit
      · exact hstate
      · cases hcon
    · rintro events rfl
      obtain ⟨hactive, ⟨_, -, hcon, -⟩ | ⟨outcome, rfl, heq, hstate, -⟩⟩ :=
        RecordedMatch.submitWith_returns hsink hsubmit
      · cases hcon
      · cases heq
        exact ⟨outcome, hasked hactive, rfl, hstate⟩

/-! ## A disk that fills up -/

/-- A sink with room for some chunks, and for three bytes of the next. -/
def fillingSink : Sink (List UInt8 × ℕ) where
  writeAll w bytes :=
    if w.2 = 0 then (.error ⟨"no space left on device"⟩, (w.1 ++ bytes.take 3, 0))
    else (.ok (), (w.1 ++ bytes, w.2 - 1))
  flush w := (.ok (), w)

theorem fillingSink_journaled : fillingSink.Journaled Prod.fst where
  writes {w bytes w'} h := by
    unfold fillingSink at h
    simp only at h
    split_ifs at h
    · cases h
    · cases h
      rfl
  givesUp {w bytes e w'} h := by
    unfold fillingSink at h
    simp only at h
    split_ifs at h
    · cases h
      exact ⟨bytes.take 3, List.take_prefix 3 bytes, rfl⟩
    · cases h
  flushes _ := rfl

/-- A resignation whose event no longer fits: the submission fails, and nothing is written again. -/
theorem recorder_fails_closed_full : ∃ m₀ m e,
    RecordedMatch.start Resignation.known.serde fillingSink ([], 3) [] [] Resignation.initial =
      .ok m₀ ∧
    m₀.Submit Resignation.known.serde fillingSink (.resign .one) (.error e) m ∧
    m.writer.2 = 0 ∧
    ∃ reason, ∀ action answer, RecordedMatch.submitWith Resignation.known.serde fillingSink action
      answer m = (.error (.stopped reason), m) := by
  have hjournaled := fillingSink_journaled
  generalize hsink : fillingSink = sink at hjournaled ⊢
  generalize hserde : Resignation.known.serde = serde
  have hruns : ((RecordedMatch.start serde sink ([], 3) [] [] Resignation.initial).map fun m =>
      let r := RecordedMatch.submitWith serde sink (.resign .one)
        (.ok (Apply.resign Resignation.initial .one)) m
      (r.1.toOption, r.2.writer.2)) = .ok (none, 0) := by
    rw [← hsink, ← hserde]
    decide +kernel
  cases hstart : RecordedMatch.start serde sink ([], 3) [] [] Resignation.initial with
  | error e =>
      rw [hstart] at hruns
      cases hruns
  | ok m₀ =>
      rw [hstart] at hruns
      simp only [Except.map, Except.ok.injEq, Prod.mk.injEq] at hruns
      obtain ⟨hfails, hfull⟩ := hruns
      obtain ⟨hstate, -⟩ := journal_start hjournaled hstart
      cases hsubmit : RecordedMatch.submitWith serde sink (.resign .one)
          (.ok (Apply.resign Resignation.initial .one)) m₀ with
      | mk result m =>
          rw [hsubmit] at hfails hfull
          cases result with
          | ok step => cases hfails
          | error e =>
              have hlast : m₀.Submit serde sink (.resign .one) (.error e) m :=
                ⟨_, fun _ => ⟨0, by rw [hstate]; rfl⟩, hsubmit⟩
              obtain ⟨-, hclosed, -⟩ := recorder_fails_closed serde sink Prod.fst ([], 3) [] []
                Resignation.initial m₀ m [.resign .one] [.error e] hjournaled hstart
                (.snoc .nil hlast)
              exact ⟨m₀, m, e, rfl, hlast, hfull, hclosed ⟨_, List.mem_singleton_self _, .inl ⟨e, rfl⟩⟩⟩

/-! ## A recorder that takes a resignation -/

theorem RecordedMatch.start_playing {σ : Type} {serde : Serde} {sink : Sink σ} {writer : σ}
    {metadata : List (String × JsonValue)} {requiredSets : List SetRequirementV1}
    {initial : GameState} {m : RecordedMatch σ}
    (h : RecordedMatch.start serde sink writer metadata requiredSets initial = .ok m) :
    m.state = initial ∧ initial.status = .playing := by
  simp only [RecordedMatch.start, bind_ok_iff, mapError_ok_iff, pure_ok_iff] at h
  obtain ⟨_, hstatus, _, -, _, -, _, -, _, -, _, -, _, -, rfl⟩ := h
  refine ⟨rfl, ?_⟩
  unfold checkInitialStatus at hstatus
  cases hs : initial.status with
  | playing => rfl
  | ended outcome =>
    rw [hs] at hstatus
    cases hstatus
  | broken rule =>
    rw [hs] at hstatus
    cases hstatus

/-- A recorder that takes a resignation. -/
theorem Resignation.recorded : ∃ m₀ m', RecordedMatch.start Resignation.known.serde .memory [] [] []
      Resignation.initial = .ok m₀ ∧ m₀.state = Resignation.initial ∧
    RecordedMatch.submitWith Resignation.known.serde .memory (.resign .one)
      (.ok (Apply.resign Resignation.initial .one)) m₀ =
        (.ok (.accepted [.gameEnded .two .resignation]), m') ∧
    m'.lifecycle = .stopped .matchCompleted ∧ m'.state.status = .ended ⟨.two, .resignation⟩ := by
  have hruns : ((RecordedMatch.start Resignation.known.serde .memory [] [] []
      Resignation.initial).map fun m =>
        let r := RecordedMatch.submitWith Resignation.known.serde .memory (.resign .one)
          (.ok (Apply.resign Resignation.initial .one)) m
        (r.1.toOption, r.2.lifecycle, r.2.state.status)) =
      .ok (some (.accepted [.gameEnded .two .resignation]), .stopped .matchCompleted,
        .ended ⟨.two, .resignation⟩) := by
    decide +kernel
  generalize Resignation.known.serde = serde at hruns ⊢
  cases hstart : RecordedMatch.start serde .memory [] [] [] Resignation.initial with
  | error e =>
      rw [hstart] at hruns
      cases hruns
  | ok m₀ =>
    rw [hstart] at hruns
    simp only [Except.map, Except.ok.injEq, Prod.mk.injEq] at hruns
    obtain ⟨hresult, hcompleted, hended⟩ := hruns
    cases hsubmit : RecordedMatch.submitWith serde .memory (.resign .one)
        (.ok (Apply.resign Resignation.initial .one)) m₀ with
    | mk result m' =>
      rw [hsubmit] at hresult hcompleted hended
      cases result with
      | error e => cases hresult
      | ok step =>
        cases hresult
        exact ⟨m₀, m', rfl, (RecordedMatch.start_playing hstart).1, hsubmit, hcompleted, hended⟩

end Summoners
