import Mathlib.Data.List.Induction
import Summoners.Cli.SessionLog

/-! # The history of a session

What the players of a session are shown, what their requests may do, and who is answered, whatever the
order in which the session hears of its connections.
-/

namespace Summoners.Cli.Server
set_option autoImplicit false

open Checked Protocol

/-! ## The match -/

/-- The state that an answer leaves. -/
def stateAfter (state : GameState) : Except ActionError ActionOutcome → GameState
  | .ok outcome => outcome.state
  | .error _ => state

/-- The engine is asked for the actions one after the other, and takes or refuses each. -/
inductive Plays (initial : GameState) : List GameAction → GameState → Prop
  | nil : Plays initial [] initial
  | snoc {actions : List GameAction} {state : GameState} {action : GameAction} {fuel : ℕ}
      {answer : Except ActionError ActionOutcome} (h : Plays initial actions state)
      (happly : apply fuel state action = some answer) :
      Plays initial (actions ++ [action]) (stateAfter state answer)

section
variable {σ κ : Type}

/-- The action of a recorded step. -/
def Handled.recorded (h : Handled σ κ) : Option GameAction :=
  match h.reaction.submitted with
  | some (action, .ok _) => some action
  | _ => none

/-- The request that an event asks for an answer to, unless the recorder fails on it. -/
def Handled.answered (h : Handled σ κ) : Option (κ × ℕ) :=
  match h.event, h.reaction.submitted with
  | some (_, .submit ..), some (_, .error _) => none
  | some (c, .submit _ requestId _ _), _ => some (c, requestId)
  | some (c, .unsupportedVersion _ requestId), _ => some (c, requestId)
  | _, _ => none

/-- The actions recorded, accepted or not. -/
def recordedActions (log : List (Handled σ κ)) : List GameAction := log.filterMap Handled.recorded

variable {log : List (Handled σ κ)}

theorem recordedActions_concat_none (entry : Handled σ κ) (h : entry.recorded = none) :
    recordedActions (log ++ [entry]) = recordedActions log := by
  unfold recordedActions
  rw [List.filterMap_append, List.filterMap_cons_none h, List.filterMap_nil, List.append_nil]

theorem recordedActions_concat_some (entry : Handled σ κ) {action : GameAction}
    (h : entry.recorded = some action) :
    recordedActions (log ++ [entry]) = recordedActions log ++ [action] := by
  unfold recordedActions
  rw [List.filterMap_append, List.filterMap_cons_some h, List.filterMap_nil]

variable {descriptions : CardDescriptions} {identities : CardIdentityMap} {serde : Serde}
  {sink : Sink σ} {answer : Except ActionError ActionOutcome} {s : Session σ κ}
  {event : SessionEvent κ} {r : Reaction σ κ}

/-- What an event means for the recorder: nothing, an action that it fails on, or a step. -/
theorem Reacts.recording (h : Reacts descriptions identities serde sink answer s event r) :
    (r.submitted = none ∧ r.session.recorder = s.recorder ∧ r.session.revision = s.revision) ∨
      ∃ seat requestId basedOnRevision wire action,
        event = .submit seat requestId basedOnRevision wire ∧
        Submits s seat requestId basedOnRevision wire action ∧
        ((∃ error, r.submitted = some (action, .error error) ∧ r.session.revision = s.revision ∧
            r.returned.isSome = true) ∨
          ∃ step recorder, r.submitted = some (action, .ok step) ∧
            RecordedMatch.submitWith serde sink action answer s.recorder = (.ok step, recorder) ∧
            r.session.recorder = recorder ∧ r.session.revision = s.revision + 1 ∧
            (r.returned = none → outcomeOf recorder.state.status = none)) := by
  cases h with
  | unseated seat client hevent envelope stops hstops hshown hadmission hsession hsent hsubmitted =>
    exact .inl ⟨hsubmitted, by rw [hsession], by rw [hsession]⟩
  | waits seat client hevent hfree halone hadmission hsession hsent hsubmitted =>
    exact .inl ⟨hsubmitted, by rw [hsession]; rfl, by rw [hsession]; rfl⟩
  | opens seat client hevent hfree halone hboth hadmission hsession stops hstops hsent hsubmitted =>
    exact .inl ⟨hsubmitted, by rw [hsession]; rfl, by rw [hsession]; rfl⟩
  | gone seat hevent hsession hstops hsubmitted =>
    exact .inl ⟨hsubmitted, by rw [hsession], by rw [hsession]⟩
  | unsupported seat requestId hevent hsession stops hstops hsent hsubmitted =>
    exact .inl ⟨hsubmitted, by rw [hsession], by rw [hsession]⟩
  | stranger seat requestId basedOnRevision wire hevent hclient hsession hsent hsubmitted =>
    exact .inl ⟨hsubmitted, by rw [hsession], by rw [hsession]⟩
  | rejected seat requestId basedOnRevision wire hevent client hclient reason hsession hsent
      hsubmitted =>
    obtain ⟨-, hsession⟩ | ⟨-, hsession⟩ := hsession
    · exact .inl ⟨hsubmitted, by rw [hsession], by rw [hsession]⟩
    · exact .inl ⟨hsubmitted, by rw [hsession]; rfl, by rw [hsession]; rfl⟩
  | failed seat requestId basedOnRevision wire hevent action hsubmits error recorder hsubmit hsession
      hstops hsubmitted hreturned =>
    exact .inr ⟨seat, requestId, basedOnRevision, wire, action, hevent, hsubmits,
      .inl ⟨error, hsubmitted, by rw [hsession]; rfl, by rw [hreturned]; rfl⟩⟩
  | recorded seat requestId basedOnRevision wire hevent action hsubmits step recorder hsubmit hsession
      stops hstops hsent hsubmitted hreturned =>
    exact .inr ⟨seat, requestId, basedOnRevision, wire, action, hevent, hsubmits,
      .inr ⟨step, recorder, hsubmitted, hsubmit, by rw [hsession], by rw [hsession],
        hreturned⟩⟩

end

/-! ## The invariant -/

section
variable {σ κ : Type} [DecidableEq κ]

/-- The states of a log are those of the match that was recorded. -/
structure Played (initial : GameState) (w : World σ κ) : Prop where
  counts : (recordedActions w.log).length = w.session.revision
  plays : ∀ (r : ℕ) (state : GameState), (states initial w.log)[r]? = some state →
    Plays initial ((recordedActions w.log).take r) state
  playing : w.returned = false → w.session.recorder.state.status = .playing

omit [DecidableEq κ] in
theorem Played.over {initial : GameState} {w : World σ κ} (h : Played initial w)
    (hrunning : w.returned = false) : outcomeOf w.session.recorder.state.status = none := by
  rw [h.playing hrunning]
  rfl

variable {descriptions : CardDescriptions} {identities : CardIdentityMap} {serde : Serde}
  {sink : Sink σ} {m₀ : RecordedMatch σ} {initial : GameState} {w w' : World σ κ} {c : κ}
  {r : Reaction σ κ} {event : SessionEvent κ} {rest : List (κ × SessionEvent κ)}

omit [DecidableEq κ] in
theorem played_start (h : m₀.state = initial) (hplaying : initial.status = .playing) :
    Played initial (World.start m₀ : World σ κ) where
  counts := rfl
  plays := by
    intro r state hstate
    cases r with
    | zero =>
      obtain rfl := Option.some.inj hstate
      exact .nil
    | succ r => cases hstate
  playing := by
    intro _
    show m₀.state.status = .playing
    rw [h, hplaying]

/-- Nothing is recorded. -/
theorem Played.quiet (h : Played initial w) (hrecorded : ∀ action step,
      r.submitted ≠ some (action, .ok step))
    (hrevision : r.session.revision = w.session.revision)
    (hover : r.returned.isSome = false → r.session.recorder = w.session.recorder)
    (hrunning : w.returned = false) : Played initial (w.served c event r rest) := by
  have hnone : (⟨w.session, some (c, event), r⟩ : Handled σ κ).recorded = none ∧
      (⟨w.session, some (c, event), r⟩ : Handled σ κ).after = none := by
    unfold Handled.recorded Handled.after
    rcases hsubmitted : r.submitted with _ | ⟨action, _ | step⟩
    · exact ⟨rfl, rfl⟩
    · exact ⟨rfl, rfl⟩
    · exact absurd hsubmitted (hrecorded action step)
  have hactions : recordedActions (w.served c event r rest).log = recordedActions w.log :=
    recordedActions_concat_none _ hnone.1
  have hstates : states initial (w.served c event r rest).log = states initial w.log :=
    states_concat_none _ hnone.2
  refine ⟨?_, ?_, ?_⟩
  · rw [hactions, h.counts]
    exact hrevision.symm
  · rw [hactions, hstates]
    exact h.plays
  · intro hreturned
    show r.session.recorder.state.status = .playing
    rw [hover hreturned]
    exact h.playing hrunning

/-- A step is recorded: the state it leads to is the one the engine answered. -/
theorem Played.recorded (h : Played initial w) (htold : Told descriptions serde sink m₀ initial w)
    (hrunning : w.returned = false) {action : GameAction} {step : RecordedStep}
    {recorder : RecordedMatch σ} {answer : Except ActionError ActionOutcome}
    (hsubmitted : r.submitted = some (action, .ok step))
    (hsubmit : RecordedMatch.submitWith serde sink action answer w.session.recorder =
      (.ok step, recorder))
    (hrecorder : r.session.recorder = recorder)
    (hrevision : r.session.revision = w.session.revision + 1)
    (hreturned : r.returned = none → outcomeOf recorder.state.status = none)
    (hanswer : w.session.recorder.lifecycle = .active →
      ∃ fuel, apply fuel w.session.recorder.state action = some answer) :
    Played initial (w.served c event r rest) := by
  obtain ⟨hactive, hcases⟩ := submitWith_ok_state hsubmit
  obtain ⟨fuel, happly⟩ := hanswer hactive
  have hstate : recorder.state = stateAfter w.session.recorder.state answer := by
    obtain ⟨outcome, rfl, -, hstate, -⟩ | ⟨error, rfl, -, hstate⟩ := hcases
    · exact hstate
    · exact hstate
  have hactions : recordedActions (w.served c event r rest).log =
      recordedActions w.log ++ [action] := by
    refine recordedActions_concat_some _ ?_
    unfold Handled.recorded
    simp only [hsubmitted]
  have hstates : states initial (w.served c event r rest).log =
      states initial w.log ++ [recorder.state] := by
    refine states_concat_some _ ?_
    unfold Handled.after
    simp only [hsubmitted, hrecorder]
  have hlength : (states initial w.log).length = w.session.revision + 1 := htold.counts
  have hlast := htold.last hrunning
  refine ⟨?_, ?_, ?_⟩
  · rw [hactions, List.length_append, h.counts]
    exact hrevision.symm
  · intro i state hmem
    rw [hstates] at hmem
    rw [hactions]
    by_cases hold : i < (states initial w.log).length
    · -- an earlier state is the one of fewer actions
      rw [List.getElem?_append_left hold] at hmem
      rw [List.take_append_of_le_length (by rw [h.counts]; omega)]
      exact h.plays i state hmem
    · rw [List.getElem?_append_right (by omega), List.getElem?_singleton] at hmem
      split at hmem
      · obtain rfl := Option.some.inj hmem
        rw [List.take_of_length_le (by rw [List.length_append, h.counts]; simp; omega), hstate]
        refine .snoc ?_ happly
        have hplays := h.plays w.session.revision w.session.recorder.state (by
          rw [← hlast, List.getLast?_eq_getElem?, hlength, Nat.add_sub_cancel])
        rwa [List.take_of_length_le h.counts.le] at hplays
      · cases hmem
  · intro hnot
    show r.session.recorder.state.status = .playing
    rw [hrecorder]
    have hgoes := hreturned (Option.isSome_eq_false_iff.mp hnot |> Option.isNone_iff_eq_none.mp)
    obtain ⟨outcome, -, -, hsame, hunbroken⟩ | ⟨error, -, -, hsame⟩ := hcases
    · rw [← hsame] at hunbroken
      cases hstatus : recorder.state.status with
      | playing => rfl
      | broken b => exact absurd hstatus (hunbroken b)
      | ended o =>
        rw [hstatus] at hgoes
        cases hgoes
    · rw [hsame]
      exact h.playing hrunning

/-- The session takes an event. -/
theorem Played.served (h : Played initial w) (htold : Told descriptions serde sink m₀ initial w)
    (hrunning : w.returned = false) {answer : Except ActionError ActionOutcome}
    (hreacts : Reacts descriptions identities serde sink answer w.session event r)
    (hanswer : ∀ action result, r.submitted = some (action, result) →
      w.session.recorder.lifecycle = .active →
        ∃ fuel, apply fuel w.session.recorder.state action = some answer) :
    Played initial (w.served c event r rest) := by
  obtain ⟨hsubmitted, hrecorder, hrevision⟩ | ⟨seat, requestId, basedOnRevision, wire, action, -, -,
    hcases⟩ := hreacts.recording
  · refine h.quiet (fun action step hsome => ?_) hrevision (fun _ => hrecorder) hrunning
    rw [hsubmitted] at hsome
    cases hsome
  obtain ⟨error, hsubmitted, hrevision, hreturned⟩ | ⟨step, recorder, hsubmitted, hsubmit,
    hrecorder, hrevision, hreturned⟩ := hcases
  · refine h.quiet (fun action step hsome => ?_) hrevision (fun hnot => ?_) hrunning
    · rw [hsubmitted] at hsome
      cases hsome
    · rw [hreturned] at hnot
      cases hnot
  · exact h.recorded htold hrunning hsubmitted hsubmit hrecorder hrevision hreturned
      (hanswer action _ hsubmitted)

theorem Played.step (h : Played initial w) (htold : Told descriptions serde sink m₀ initial w)
    (hstep : Step descriptions identities serde sink w w') : Played initial w' := by
  cases hstep with
  | join | refuse | read => exact ⟨h.counts, h.plays, h.playing⟩
  | serve hrunning hqueue answer link hreaction hanswer =>
    exact h.served htold hrunning (hreaction ▸ Session.react_reacts _) hanswer
  | interrupt hrunning =>
    have hstates : states initial (w.log ++ [⟨w.session, none, w.session.interrupted⟩]) =
        states initial w.log := states_concat_none _ rfl
    have hactions : recordedActions (w.log ++ [⟨w.session, none, w.session.interrupted⟩]) =
        recordedActions w.log := recordedActions_concat_none _ rfl
    refine ⟨?_, ?_, nofun⟩ <;> dsimp only
    · rw [hactions]
      exact h.counts
    · rw [hactions, hstates]
      exact h.plays

theorem Reachable.played (h : Reachable descriptions identities serde sink m₀ w)
    (hinitial : m₀.state = initial) (hplaying : initial.status = .playing) : Played initial w := by
  induction h with
  | refl => exact played_start hinitial hplaying
  | tail hrun hstep ih => exact ih.step (Reachable.told hrun hinitial) hstep

/-- A session logs what it takes, and nothing else. -/
theorem logs_step :
    Checked.Logs (Step descriptions identities serde sink : World σ κ → World σ κ → Prop) World.log where
  step := by
    intro w w' hstep
    cases hstep with
    | join | refuse | read => exact .inl rfl
    | serve | interrupt => exact .inr ⟨_, rfl⟩

/-- A session that has returned takes nothing more. -/
theorem log_of_returned (h : Relation.ReflTransGen (Step descriptions identities serde sink) w w')
    (hreturned : w.returned = true) : w'.log = w.log ∧ w'.returned = true := by
  induction h with
  | refl => exact ⟨rfl, hreturned⟩
  | tail _ hstep ih =>
    cases hstep with
    | join | refuse | read => exact ih
    | serve hrunning =>
      rw [ih.2] at hrunning
      cases hrunning
    | interrupt hrunning =>
      rw [ih.2] at hrunning
      cases hrunning

end

/-! ## A session of one resignation -/

def noCards : CardDescriptions := .fromCardSet ⟨[]⟩

def noIdentities : CardIdentityMap := .fromInitialState Resignation.initial noCards

section
variable {σ κ : Type} [DecidableEq κ]

/-- Who joins submits nothing. -/
theorem react_joined_submitted {descriptions : CardDescriptions} {identities : CardIdentityMap}
    {serde : Serde} {sink : Sink σ} {answer : Except ActionError ActionOutcome}
    {link : κ → ServerEnvelope → Bool} (s : Session σ κ) (seat : Seat) (client : κ) :
    (s.react descriptions identities serde sink answer link (.joined seat client)).submitted = none := by
  show (s.onJoined descriptions identities link seat client).submitted = none
  unfold Session.onJoined
  split <;> [rfl; split <;> rfl]

/-- The session records the resignation of its first player. -/
theorem react_resignation {serde : Serde} {m' : RecordedMatch (List (List UInt8))}
    {s : Session (List (List UInt8)) κ} (client : κ)
    (hsubmit : RecordedMatch.submitWith serde .memory (.resign .one)
      (.ok (Apply.resign Resignation.initial .one)) s.recorder =
        (.ok (.accepted [.gameEnded .two .resignation]), m'))
    (hstate : s.recorder.state = Resignation.initial) (hclient : s.clients .one = some client)
    (hoccupied : occupied s.clients = true) (hrevision : s.revision = 0)
    (hrequests : s.requests .one = 0) :
    (s.react noCards noIdentities serde .memory (.ok (Apply.resign Resignation.initial .one))
      (fun _ _ => true) (.submit .one 1 0 (.resign .one))).submitted =
        some (.resign .one, .ok (.accepted [.gameEnded .two .resignation])) ∧
    (s.react noCards noIdentities serde .memory (.ok (Apply.resign Resignation.initial .one))
      (fun _ _ => true) (.submit .one 1 0 (.resign .one))).session =
        { s.counted .one 1 with recorder := m', revision := 1 } := by
  have haccepts : acceptsRevision s.revision 0 (.resign .one) s.recorder.state.status = true := by
    rw [hstate, hrevision]
    rfl
  have hnormal : normalizeAction (Seat.player .one) (.resign .one) = .ok (.resign .one) := rfl
  have hreact : s.react noCards noIdentities serde .memory
      (.ok (Apply.resign Resignation.initial .one)) (fun _ _ => true) (.submit .one 1 0 (.resign .one)) =
        (s.counted .one 1).record noCards noIdentities serde .memory
          (.ok (Apply.resign Resignation.initial .one)) (fun _ _ => true) .one 1 (.resign .one) := by
    unfold Session.react Session.onSubmit
    simp only [hclient, hrequests, hoccupied, hnormal, haccepts, requestIsNext]
    rfl
  have hcounted : RecordedMatch.submitWith serde .memory (.resign .one)
      (.ok (Apply.resign Resignation.initial .one)) (s.counted .one 1).recorder =
        (.ok (.accepted [.gameEnded .two .resignation]), m') := hsubmit
  have hfirst : (s.counted .one 1).revision + 1 = 1 := congrArg (· + 1) hrevision
  rw [hreact]
  unfold Session.record
  rw [hcounted]
  refine ⟨rfl, ?_⟩
  dsimp only
  rw [hfirst]

end

/-- Two players join, and the first resigns. -/
theorem resignation_session : ∃ (recorder : RecordedMatch (List (List UInt8))) (w : World _ ℕ)
    (pre : List (Handled _ ℕ)) (entry : Handled _ ℕ),
    RecordedMatch.start Resignation.known.serde .memory [] [] [] Resignation.initial = .ok recorder ∧
    Reachable noCards noIdentities Resignation.known.serde .memory recorder w ∧
    w.log = pre ++ [entry] ∧
    entry.submitted = some (.resign .one, .ok (.accepted [.gameEnded .two .resignation])) ∧
    entry.event = some (1, .submit .one 1 0 (.resign .one)) ∧
    w.session.revision = 1 ∧ w.session.clients .one = some 1 ∧ w.session.clients .two = some 2 ∧
    w.session.recorder.state.status = .ended ⟨.two, .resignation⟩ ∧
    w.log.filterMap Handled.answered = [(1, 1)] ∧ entry.reaction.session = w.session := by
  obtain ⟨m₀, m', hstart, hinitial, hsubmit, -, hended⟩ := Resignation.recorded
  generalize Resignation.known.serde = serde at *
  obtain ⟨writer, state, nextSequence, nextStep, totalEvents, lifecycle⟩ := m₀
  change state = Resignation.initial at hinitial
  subst hinitial
  generalize hm₀ : RecordedMatch.mk writer Resignation.initial nextSequence nextStep totalEvents
    lifecycle = m₀ at *
  have hrecord := fun (s : Session _ ℕ) (hs : s.recorder = m₀) =>
    react_resignation (s := s) 1 (hs ▸ hsubmit) (by rw [hs, ← hm₀])
  have hengine : ∀ s : Session (List (List UInt8)) ℕ, s.recorder = m₀ →
      ∃ fuel, apply fuel s.recorder.state (.resign .one) =
        some (.ok (Apply.resign Resignation.initial .one)) := by
    intro s hs
    rw [hs, ← hm₀]
    exact ⟨0, rfl⟩
  have hrun := Relation.ReflTransGen.refl (r := Step noCards noIdentities serde .memory)
    (a := (World.start m₀ : World _ ℕ))
  have hrun := hrun.tail (.join (c := 1) rfl (some (.join version .one)) rfl)
  have hrun := hrun.tail (.serve rfl rfl (.error .wrongPhase) (fun _ _ => true) rfl
    (fun _ _ h => by rw [react_joined_submitted] at h; cases h))
  have hrun := hrun.tail (.join (c := 2) rfl (some (.join version .two)) rfl)
  have hrun := hrun.tail (.serve rfl rfl (.error .wrongPhase) (fun _ _ => true) rfl
    (fun _ _ h => by rw [react_joined_submitted] at h; cases h))
  have hrun := hrun.tail (.read (c := 1) rfl
    (some (.submit version 1 0 (.resign .one))) rfl)
  have hrun := hrun.tail (.serve rfl rfl (.ok (Apply.resign Resignation.initial .one))
    (fun _ _ => true) rfl (by
      intro action result hsubmitted _
      rw [(hrecord _ rfl rfl rfl rfl rfl).1] at hsubmitted
      cases hsubmitted
      exact hengine _ rfl))
  refine ⟨m₀, _, _, _, hstart, hrun, rfl, (hrecord _ rfl rfl rfl rfl rfl).1, rfl, ?_, ?_, ?_, ?_, ?_,
    rfl⟩
  · dsimp only
    rw [(hrecord _ rfl rfl rfl rfl rfl).2]
  · dsimp only
    rw [(hrecord _ rfl rfl rfl rfl rfl).2]
    rfl
  · dsimp only
    rw [(hrecord _ rfl rfl rfl rfl rfl).2]
    rfl
  · dsimp only
    rw [(hrecord _ rfl rfl rfl rfl rfl).2]
    exact hended
  · rw [List.filterMap_append]
    have hanswered : ∀ (h : Handled (List (List UInt8)) ℕ) action step,
        h.event = some (1, .submit .one 1 0 (.resign .one)) →
          h.reaction.submitted = some (action, .ok step) → h.answered = some (1, 1) := by
      intro h action step hevent hsubmitted
      unfold Handled.answered
      rw [hevent, hsubmitted]
    rw [List.filterMap_cons_some (hanswered _ _ _ rfl (hrecord _ rfl rfl rfl rfl rfl).1)]
    rfl

/-! ## What the players are shown -/

section
variable {σ κ : Type} [DecidableEq κ]

/-- Once both seats are taken, each player is shown his view of every state of the match, once and in
order, and nobody else is shown any; the state of revision r is what the engine makes of the first r
recorded actions, and the match is over with the session. -/
theorem players_shown_every_state (descriptions : CardDescriptions) (identities : CardIdentityMap)
    (serde : Serde) (sink : Sink σ) (writer : σ) (metadata : List (String × JsonValue))
    (requiredSets : List SetRequirementV1) (initial : GameState) (recorder : RecordedMatch σ)
    (w : World σ κ)
    (hstart : RecordedMatch.start serde sink writer metadata requiredSets initial = .ok recorder)
    (h : Reachable descriptions identities serde sink recorder w) :
    ∃ history : List GameState,
      history.length = w.session.revision + 1 ∧
      (recordedActions w.log).length = w.session.revision ∧
      (∀ (r : ℕ) (state : GameState), history[r]? = some state →
        Plays initial ((recordedActions w.log).take r) state) ∧
      (∀ state ∈ history.dropLast, state.status = .playing) ∧
      (∀ state ∈ history, (outcomeOf state.status).isSome = true → w.returned = true) ∧
      (∀ (seat : Seat) (c : κ), w.session.clients seat = some c →
        shownTo c (messages w.log) =
          if occupied w.session.clients then history.mapIdx (shownAt descriptions seat) else []) ∧
      ∀ c : κ, (∀ seat, w.session.clients seat ≠ some c) → shownTo c (messages w.log) = [] := by
  obtain ⟨hinitial, hplaying⟩ := RecordedMatch.start_playing hstart
  have htold := Reachable.told h hinitial
  have hplayed := Reachable.played h hinitial hplaying
  refine ⟨states initial w.log, htold.counts, hplayed.counts, hplayed.plays, htold.earlier, ?_,
    htold.told, htold.strangers⟩
  intro state hmem hended
  by_contra hrunning
  rw [Bool.not_eq_true] at hrunning
  rw [← List.dropLast_append_getLast? _ (htold.last hrunning), List.mem_append,
    List.mem_singleton] at hmem
  obtain hmem | rfl := hmem
  · rw [htold.earlier state hmem] at hended
    cases hended
  · rw [hplayed.over hrunning] at hended
    cases hended

/-- The resignation is the second of two states that the player is shown. -/
theorem players_shown_every_state_resignation :
    ∃ (recorder : RecordedMatch (List (List UInt8))) (w : World (List (List UInt8)) ℕ)
      (history : List GameState),
      RecordedMatch.start Resignation.known.serde .memory [] [] [] Resignation.initial = .ok recorder ∧
      Reachable noCards noIdentities Resignation.known.serde .memory recorder w ∧
      history.length = 2 ∧
      (∀ state, history[1]? = some state →
        Plays Resignation.initial ((recordedActions w.log).take 1) state) ∧
      w.session.clients .two = some 2 ∧
      shownTo 2 (messages w.log) = history.mapIdx (shownAt noCards .two) := by
  obtain ⟨recorder, w, pre, entry, hstart, hrun, -, -, -, hrevision, hone, htwo, -⟩ :=
    resignation_session
  obtain ⟨history, hlength, -, hplays, -, -, hshown, -⟩ := players_shown_every_state noCards
    noIdentities Resignation.known.serde .memory [] [] [] Resignation.initial recorder w hstart hrun
  have hboth : occupied w.session.clients = true := by
    rw [occupied_iff]
    rintro (_ | _)
    · rw [hone]
      rfl
    · rw [htwo]
      rfl
  refine ⟨recorder, w, history, hstart, hrun, by rw [hlength, hrevision], hplays 1, htwo, ?_⟩
  rw [hshown .two 2 htwo, if_pos hboth]

/-- An action reaches the recorder only from the player whose action it is, under a new request
number, while the match is on, and, unless he resigns, on the last state that he was shown; when the
recorder fails, the session ends. -/
theorem recorder_asked_by_rightful_player (descriptions : CardDescriptions)
    (identities : CardIdentityMap) (serde : Serde) (sink : Sink σ) (writer : σ)
    (metadata : List (String × JsonValue)) (requiredSets : List SetRequirementV1)
    (initial : GameState) (recorder : RecordedMatch σ) (w : World σ κ)
    (pre post : List (Handled σ κ)) (entry : Handled σ κ) (action : GameAction)
    (result : Except RecordingError RecordedStep)
    (hstart : RecordedMatch.start serde sink writer metadata requiredSets initial = .ok recorder)
    (h : Reachable descriptions identities serde sink recorder w)
    (hlog : w.log = pre ++ entry :: post) (hentry : entry.submitted = some (action, result)) :
    ∃ (c : κ) (seat : Seat) (requestId basedOnRevision : ℕ) (wire : ActionV1) (state : GameState),
      entry.event = some (c, .submit seat requestId basedOnRevision wire) ∧
      wire.tryIntoCore = .ok action ∧ action.actor = Seat.player seat ∧
      (∀ id ∈ requestsOf seat pre, id < requestId) ∧
      Plays initial (recordedActions pre) state ∧ state.status = .playing ∧
      (shownTo c (messages pre)).getLast? =
        some (some (recordedActions pre).length, playerView state (Seat.player seat) descriptions) ∧
      (basedOnRevision = (recordedActions pre).length ∨ isResign action = true) ∧
      ((∃ events fuel outcome, result = .ok (.accepted events) ∧
          apply fuel state action = some (.ok outcome) ∧ outcome.events = events) ∨
        (∃ error fuel, result = .ok (.rejected error) ∧
          apply fuel state action = some (.error error)) ∨
        ∃ error, result = .error error ∧ post = [] ∧ w.returned = true) := by
  obtain ⟨hinitial, hplaying⟩ := RecordedMatch.start_playing hstart
  obtain ⟨w₁, w₂, hrun, hstep, hlater, hpre, hpost⟩ := logs_step.exists_step h rfl hlog
  have htold := Reachable.told hrun hinitial
  have hplayed := Reachable.played hrun hinitial hplaying
  have hwired := Reachable.wired hrun
  rw [← hpre] at hpost ⊢
  cases hstep with
  | join | refuse | read => simp at hpost
  | interrupt hrunning =>
    obtain rfl := List.singleton_inj.mp (List.append_cancel_left hpost)
    cases hentry
  | @serve c event rest hrunning hqueue answer link reaction hreaction hanswer =>
    obtain rfl := List.singleton_inj.mp (List.append_cancel_left hpost)
    change reaction.submitted = some (action, result) at hentry
    have hreacts : Reacts descriptions identities serde sink answer w₁.session event reaction :=
      hreaction ▸ Session.react_reacts _
    obtain ⟨hsubmitted, -⟩ | ⟨seat, requestId, basedOnRevision, wire, action', hevent, hsubmits,
      hcases⟩ := hreacts.recording
    · rw [hsubmitted] at hentry
      cases hentry
    have hclient := hwired.queued c event (by rw [hqueue]; exact List.mem_cons_self)
    rw [hevent] at hclient
    have hlast := htold.last hrunning
    have hshown : (shownTo c (messages w₁.log)).getLast? = some (some (recordedActions w₁.log).length,
        playerView w₁.session.recorder.state (Seat.player seat) descriptions) := by
      rw [htold.told seat c hclient, if_pos hsubmits.both, List.getLast?_mapIdx, hlast, htold.counts,
        hplayed.counts, Option.map_some, Nat.add_sub_cancel]
      unfold shownAt
      rw [hplayed.over hrunning]
      rfl
    have hplays : Plays initial (recordedActions w₁.log) w₁.session.recorder.state := by
      have hplays := hplayed.plays w₁.session.revision w₁.session.recorder.state (by
        rw [← hlast, List.getLast?_eq_getElem?, htold.counts, Nat.add_sub_cancel])
      rwa [List.take_of_length_le hplayed.counts.le] at hplays
    have hrevision : basedOnRevision = (recordedActions w₁.log).length ∨ isResign action' = true := by
      rw [hplayed.counts]
      exact hsubmits.revision
    have hrequests : ∀ id ∈ requestsOf seat w₁.log, id < requestId := by
      intro id hmem
      have hle := htold.requests seat id hmem
      have hlt := hsubmits.request
      omega
    have hsame : action' = action := by
      obtain ⟨error, hsubmitted, -⟩ | ⟨step, recorder', hsubmitted, -⟩ := hcases <;>
        · rw [hsubmitted] at hentry
          exact congrArg Prod.fst (Option.some.inj hentry)
    subst hsame
    refine ⟨c, seat, requestId, basedOnRevision, wire, w₁.session.recorder.state, by rw [hevent],
      hsubmits.converts, hsubmits.actor, hrequests, hplays, hsubmits.playing, hshown, hrevision, ?_⟩
    obtain ⟨error, hsubmitted, -, hreturned⟩ | ⟨step, recorder', hsubmitted, hsubmit, -⟩ := hcases
    · rw [hsubmitted] at hentry
      cases hentry
      obtain ⟨hsilent, hover⟩ := log_of_returned hlater hreturned
      refine .inr (.inr ⟨error, rfl, ?_, hover⟩)
      rw [hlog, hpre] at hsilent
      simpa using hsilent
    · rw [hsubmitted] at hentry
      cases hentry
      obtain ⟨hactive, hsteps⟩ := submitWith_ok_state hsubmit
      obtain ⟨fuel, happly⟩ := hanswer _ _ hsubmitted hactive
      obtain ⟨outcome, rfl, rfl, -⟩ | ⟨error, rfl, rfl, -⟩ := hsteps
      · exact .inl ⟨_, fuel, outcome, rfl, happly, rfl⟩
      · exact .inr (.inl ⟨error, fuel, rfl, happly⟩)

/-- The resignation is the first player's own. -/
theorem recorder_asked_by_rightful_player_resignation :
    ∃ (recorder : RecordedMatch (List (List UInt8))) (w : World (List (List UInt8)) ℕ)
      (pre : List (Handled (List (List UInt8)) ℕ)) (entry : Handled (List (List UInt8)) ℕ)
      (state : GameState),
      RecordedMatch.start Resignation.known.serde .memory [] [] [] Resignation.initial = .ok recorder ∧
      Reachable noCards noIdentities Resignation.known.serde .memory recorder w ∧
      w.log = pre ++ [entry] ∧
      Plays Resignation.initial (recordedActions pre) state ∧ state.status = .playing ∧
      (shownTo 1 (messages pre)).getLast? =
        some (some (recordedActions pre).length, playerView state .one noCards) := by
  obtain ⟨recorder, w, pre, entry, hstart, hrun, hlog, hsubmitted, hevent, -⟩ := resignation_session
  obtain ⟨c, seat, requestId, basedOnRevision, wire, state, hfrom, -, -, -, hplays, hplaying, hshown,
    -⟩ := recorder_asked_by_rightful_player noCards noIdentities Resignation.known.serde .memory [] []
      [] Resignation.initial recorder w pre [] entry (.resign .one) _ hstart hrun hlog hsubmitted
  rw [hevent] at hfrom
  cases hfrom
  exact ⟨recorder, w, pre, entry, state, hstart, hrun, hlog, hplays, hplaying, hshown⟩

/-! ## Who is answered -/

variable {descriptions : CardDescriptions} {identities : CardIdentityMap} {serde : Serde}
  {sink : Sink σ} {answer : Except ActionError ActionOutcome} {s : Session σ κ} {c : κ}
  {event : SessionEvent κ} {r : Reaction σ κ}

omit [DecidableEq κ] in
/-- An event of the client on its seat is answered to him, if it is answered at all. -/
theorem Reacts.replies (h : Reacts descriptions identities serde sink answer s event r)
    (howner : ∀ seat, (∃ requestId basedOnRevision wire,
        event = .submit seat requestId basedOnRevision wire) ∨
      (∃ requestId, event = .unsupportedVersion seat requestId) → s.clients seat = some c) :
    Server.replies r.sent = (⟨s, some (c, event), r⟩ : Handled σ κ).answered.toList := by
  cases h with
  | unseated seat client hevent envelope stops hstops hshown hadmission hsession hsent =>
    rw [hsent, ← List.singleton_append, replies_append, replies_stops hstops, List.append_nil]
    subst hevent
    obtain rfl | rfl := hshown <;> rfl
  | waits seat client hevent hfree halone hadmission hsession hsent =>
    rw [hsent, hevent]
    rfl
  | opens seat client hevent hfree halone hboth hadmission hsession stops hstops hsent =>
    rw [hsent, ← List.singleton_append, replies_append, replies_append, replies_stops hstops,
      replies_broadcast_none rfl, hevent]
    rfl
  | gone seat hevent hsession hstops =>
    rw [replies_stops hstops, hevent]
    rfl
  | unsupported seat requestId hevent hsession stops hstops hsent =>
    rw [hsent, replies_append, replies_stops hstops, List.append_nil,
      howner seat (.inr ⟨requestId, hevent⟩), hevent]
    rfl
  | stranger seat requestId basedOnRevision wire hevent hclient =>
    rw [howner seat (.inl ⟨_, _, _, hevent⟩)] at hclient
    cases hclient
  | rejected seat requestId basedOnRevision wire hevent client hclient reason hsession hsent
      hsubmitted =>
    rw [howner seat (.inl ⟨_, _, _, hevent⟩)] at hclient
    obtain rfl := Option.some.inj hclient
    unfold Handled.answered
    simp only [hsent, hevent, hsubmitted]
    rfl
  | failed seat requestId basedOnRevision wire hevent action hsubmits error recorder hsubmit hsession
      hstops hsubmitted =>
    rw [replies_stops hstops]
    unfold Handled.answered
    simp only [hevent, hsubmitted]
    rfl
  | recorded seat requestId basedOnRevision wire hevent action hsubmits step recorder hsubmit hsession
      stops hstops hsent hsubmitted =>
    rw [hsent, replies_append, replies_stops hstops, List.append_nil,
      replies_broadcast (howner seat (.inl ⟨_, _, _, hevent⟩)) rfl rfl]
    unfold Handled.answered
    simp only [hevent, hsubmitted]
    rfl

end

end Summoners.Cli.Server
