import Mathlib.Logic.Function.Basic
import Mathlib.Logic.Relation
import Summoners.Cli.Protocol
import Summoners.MatchLog.Record

/-! # The session server

`serve_session` and `handshake` of `server.rs`. A connection is a value of an arbitrary type; the queue
of session events is the channel between the tasks of the connections and the session. Whether a
message is delivered is for the environment to say, and so is what a connection sends.
-/

namespace Summoners.Cli.Server
set_option autoImplicit false

open Protocol

inductive ServeError
  | recording (error : RecordingError)
  | delivery
  deriving DecidableEq

inductive SessionEvent (κ : Type)
  | joined (seat : Seat) (client : κ)
  | submit (seat : Seat) (requestId basedOnRevision : ℕ) (action : ActionV1)
  | unsupportedVersion (seat : Seat) (requestId : ℕ)
  | gone (seat : Seat)
  deriving DecidableEq

inductive Admission
  | accepted
  | rejected
  deriving DecidableEq

/-- The variables of `serve_session`. -/
structure Session (σ κ : Type) where
  recorder : RecordedMatch σ
  clients : Seat → Option κ
  revision : ℕ
  requests : Seat → ℕ

def seats : List Seat := [.one, .two]

/-- `clients.iter().all(Option::is_some)`. -/
def occupied {κ : Type} (clients : Seat → Option κ) : Bool :=
  seats.all (fun seat => (clients seat).isSome)

/-- What the session does about one event: the messages it delivers, in order, the answer to a task
that waits for its admission, the action it submits to the recorder, and, if it returns, with what. -/
structure Reaction (σ κ : Type) where
  session : Session σ κ
  sent : List (κ × ServerEnvelope)
  admission : Option Admission
  submitted : Option (GameAction × Except RecordingError RecordedStep)
  returned : Option (Except ServeError Unit)

/-! ## Texts and checks -/

def rejection (requestId : ℕ) (reason : String) : ServerEnvelope :=
  .rejected (some requestId) reason

def rejectionReason : ActionError → String
  | .notYourDecision => "not your decision"
  | .gameAlreadyOver => "game already over"
  | .gameBroken => "game is broken"
  | .wrongPhase => "wrong phase"
  | .emptyPosition => "empty position"
  | .unknownCard => "unknown card"
  | .insufficientMana short =>
      s!"insufficient mana: matter {short.matter} mind {short.mind} spirit {short.spirit}"
  | .summonExhausted => "summon exhausted"
  | .normalAttackAlreadyUsed => "normal attack already used"
  | .normalRetreatAlreadyUsed => "normal retreat already used"
  | .alreadyUpgradedThisTurn => "already upgraded this turn"
  | .playedThisTurn => "played this turn"
  | .illegalUpgradeTarget => "illegal upgrade target"
  | .invalidTarget => "invalid target"
  | .pendingInputMismatch => "pending input mismatch"
  | .invalidManaHint => "invalid mana hint"

def requestIsNext (last request : ℕ) : Bool := last < request

def isResign : GameAction → Bool
  | .resign _ => true
  | _ => false

def acceptsRevision (revision basedOnRevision : ℕ) (action : GameAction) (status : GameStatus) :
    Bool :=
  status.isPlaying && (basedOnRevision == revision || isResign action)

/-- The first frame of a connection, when it can be read as an envelope. -/
def joinDecision : Option ClientEnvelope → Except String Seat
  | some (.join v seat) => if v = version then .ok seat else .error "unsupported version"
  | some (.submit v _ _ _) =>
      if v ≠ version then .error "unsupported version" else .error "join required"
  | none => .error "join required"

/-! ## Deliveries -/

section
variable {σ κ : Type}

def stopAll (clients : Seat → Option κ) (reason : String) : List (κ × ServerEnvelope) :=
  seats.filterMap (fun seat => (clients seat).map (fun client => (client, .stopped reason)))

structure Broadcast where
  events : List GameEvent
  revision : ℕ
  reply : Option ℕ
  requester : Option Seat
  result : Option SubmissionResult

variable (descriptions : CardDescriptions) (identities : CardIdentityMap)

/-- The message of a broadcast for one seat. -/
def Broadcast.envelope (input : Broadcast) (state : GameState) (seat : Seat) : ServerEnvelope :=
  let view := playerView state (Seat.player seat) descriptions
  let notices := playerNotices input.events identities (Seat.player seat)
  let reply := if input.requester = some seat then input.reply else none
  match view.outcome with
  | some outcome => .finished outcome view notices reply
  | none =>
      .update input.revision view notices reply
        (if input.requester = some seat then input.result else none)

def broadcast (state : GameState) (clients : Seat → Option κ) (input : Broadcast) :
    List (κ × ServerEnvelope) :=
  seats.filterMap (fun seat =>
    (clients seat).map (fun client => (client, input.envelope descriptions identities state seat)))

/-! ## The session -/

namespace Session

def start (recorder : RecordedMatch σ) : Session σ κ where
  recorder := recorder
  clients := fun _ => none
  revision := 0
  requests := fun _ => 0

/-- The session goes on, after a delivery that can fail. -/
def deliver (link : κ → ServerEnvelope → Bool) (session : Session σ κ) (client : κ)
    (envelope : ServerEnvelope) : Reaction σ κ where
  session := session
  sent := [(client, envelope)]
  admission := none
  submitted := none
  returned := if link client envelope then none else some (.error .delivery)

/-- `SessionEvent::Joined`. -/
def onJoined (link : κ → ServerEnvelope → Bool) (session : Session σ κ) (seat : Seat) (client : κ)
    [DecidableEq κ] : Reaction σ κ :=
  if (session.clients seat).isSome || occupied session.clients then
    { session
      sent := [(client, .rejected none "seat is occupied")]
      admission := some .rejected
      submitted := none
      returned := none }
  else if link client (.waiting seat) then
    let clients := Function.update session.clients seat (some client)
    let updates :=
      if occupied clients then
        broadcast descriptions identities session.recorder.state clients
          ⟨[], session.revision, none, none, none⟩
      else []
    -- the task is admitted before the updates are delivered
    { session := { session with clients }
      sent := (client, .waiting seat) ::
        if updates.all (fun (client, envelope) => link client envelope) then updates
        else updates ++ stopAll clients "connection closed"
      admission := some .accepted
      submitted := none
      returned :=
        if updates.all (fun (client, envelope) => link client envelope) then none
        else some (.error .delivery) }
  else
    { session
      sent := (client, .waiting seat) :: stopAll session.clients "connection closed"
      admission := none
      submitted := none
      returned := some (.error .delivery) }

/-- `SessionEvent::Gone`. -/
def onGone (session : Session σ κ) (seat : Seat) : Reaction σ κ where
  session := session
  sent := if (session.clients seat).isSome then stopAll session.clients "connection closed" else []
  admission := none
  submitted := none
  returned := if (session.clients seat).isSome then some (.ok ()) else none

/-- `SessionEvent::UnsupportedVersion`. -/
def onUnsupportedVersion (link : κ → ServerEnvelope → Bool) (session : Session σ κ) (seat : Seat)
    (requestId : ℕ) : Reaction σ κ :=
  let refused := rejection requestId "unsupported version"
  let sent := (session.clients seat).toList.map (fun client => (client, refused))
  let delivered := sent.all (fun (client, envelope) => link client envelope)
  { session
    sent := if delivered then sent ++ stopAll session.clients "protocol error" else sent
    admission := none
    submitted := none
    returned := some (if delivered then .ok () else .error .delivery) }

variable (serde : Serde) (sink : Sink σ)

/-- The result of a step, for the one who submitted it, and its events. -/
def resultOf : RecordedStep → SubmissionResult × List GameEvent
  | .accepted events => (.accepted, events)
  | .rejected error => (.rejected (rejectionReason error), [])

/-- `recorder.submit` and the broadcast that follows, given what `apply` answers. -/
def record (answer : Except ActionError ActionOutcome) (link : κ → ServerEnvelope → Bool)
    (session : Session σ κ) (seat : Seat) (requestId : ℕ) (action : GameAction) : Reaction σ κ :=
  let (recorded, recorder) := RecordedMatch.submitWith serde sink action answer session.recorder
  match recorded with
  | .error error =>
      { session := { session with recorder }
        sent := stopAll session.clients "recording failed"
        admission := none
        submitted := some (action, .error error)
        returned := some (.error (.recording error)) }
  | .ok step =>
      let (result, events) := resultOf step
      let revision := session.revision + 1
      let updates := broadcast descriptions identities recorder.state session.clients
        ⟨events, revision, some requestId, some seat, some result⟩
      let delivered := updates.all (fun (client, envelope) => link client envelope)
      let terminal := (outcomeOf recorder.state.status).isSome
      { session := { session with recorder, revision }
        sent := if delivered then updates else updates ++ stopAll session.clients "connection closed"
        admission := none
        submitted := some (action, .ok step)
        returned :=
          if !delivered then some (.error .delivery) else if terminal then some (.ok ()) else none }

/-- `SessionEvent::Submit`. -/
def onSubmit (answer : Except ActionError ActionOutcome) (link : κ → ServerEnvelope → Bool)
    (session : Session σ κ) (seat : Seat) (requestId basedOnRevision : ℕ) (action : ActionV1) :
    Reaction σ κ :=
  match session.clients seat with
  | none => ⟨session, [], none, none, none⟩
  | some client =>
      if !requestIsNext (session.requests seat) requestId then
        session.deliver link client (rejection requestId "request id must increase")
      else
        let session :=
          { session with requests := Function.update session.requests seat requestId }
        if !occupied session.clients then
          session.deliver link client (rejection requestId "waiting for opponent")
        else
          match normalizeAction (Seat.player seat) action with
          | .error .actor =>
              session.deliver link client
                (rejection requestId "actor does not own this connection")
          | .error (.conversion reason) =>
              session.deliver link client (rejection requestId reason)
          | .ok action =>
              if !acceptsRevision session.revision basedOnRevision action
                  session.recorder.state.status then
                session.deliver link client (rejection requestId "stale revision")
              else
                session.record descriptions identities serde sink answer link seat requestId action

def react [DecidableEq κ] (answer : Except ActionError ActionOutcome)
    (link : κ → ServerEnvelope → Bool) (session : Session σ κ) : SessionEvent κ → Reaction σ κ
  | .joined seat client => session.onJoined descriptions identities link seat client
  | .submit seat requestId basedOnRevision action =>
      session.onSubmit descriptions identities serde sink answer link seat requestId
        basedOnRevision action
  | .unsupportedVersion seat requestId => session.onUnsupportedVersion link seat requestId
  | .gone seat => session.onGone seat

/-- `ctrl_c`. -/
def interrupted (session : Session σ κ) : Reaction σ κ where
  session := session
  sent := stopAll session.clients "interrupted"
  admission := none
  submitted := none
  returned := some (.ok ())

end Session

end

/-! ## The connections and the session -/

/-- How far the task of a connection has come. -/
inductive Task
  | fresh
  | joining (seat : Seat)
  | admitted (seat : Seat)
  | ended
  deriving DecidableEq

/-- What the task of an admitted connection makes of a frame; nothing is read at its end, or when the
frame is no envelope. -/
def heard {κ : Type} (seat : Seat) : Option ClientEnvelope → SessionEvent κ × Task
  | some (.submit v requestId basedOnRevision action) =>
      if v = version then (.submit seat requestId basedOnRevision action, .admitted seat)
      else (.unsupportedVersion seat requestId, .ended)
  | some (.join ..) | none => (.gone seat, .ended)

/-- An event that the session took from the queue, with the connection whose task sent it, and what it
did about it; an interrupt has no sender. -/
structure Handled (σ κ : Type) where
  before : Session σ κ
  event : Option (κ × SessionEvent κ)
  reaction : Reaction σ κ

/-- The queue holds each event with the connection whose task sent it, which the session does not
see; the log is for the proofs only. -/
structure World (σ κ : Type) where
  session : Session σ κ
  queue : List (κ × SessionEvent κ)
  tasks : κ → Task
  returned : Bool
  log : List (Handled σ κ)

section
variable {σ κ : Type} [DecidableEq κ]

def World.start (recorder : RecordedMatch σ) : World σ κ where
  session := .start recorder
  queue := []
  tasks := fun _ => .fresh
  returned := false
  log := []

/-- What becomes of the task that waits for an admission. -/
def admitTask (tasks : κ → Task) (event : SessionEvent κ) (admission : Option Admission) : κ → Task :=
  match event with
  | .joined seat client =>
      Function.update tasks client
        (if admission = some .accepted then .admitted seat else .ended)
  | _ => tasks

variable (descriptions : CardDescriptions) (identities : CardIdentityMap) (serde : Serde)
  (sink : Sink σ)

inductive Step : World σ κ → World σ κ → Prop
  /-- A connection asks for a seat. -/
  | join {w : World σ κ} {c : κ} {seat : Seat} (h : w.tasks c = .fresh)
      (frame : Option ClientEnvelope) (hframe : joinDecision frame = .ok seat) :
      Step w { w with
        queue := w.queue ++ [(c, .joined seat c)]
        tasks := Function.update w.tasks c (.joining seat) }
  /-- A connection is refused, goes away, or takes too long. -/
  | refuse {w : World σ κ} {c : κ} (h : w.tasks c = .fresh) :
      Step w { w with tasks := Function.update w.tasks c .ended }
  /-- The task of an admitted connection reads a frame. -/
  | read {w : World σ κ} {c : κ} {seat : Seat} (h : w.tasks c = .admitted seat)
      (frame : Option ClientEnvelope) {event : SessionEvent κ} {task : Task}
      (hheard : heard seat frame = (event, task)) :
      Step w { w with
        queue := w.queue ++ [(c, event)]
        tasks := Function.update w.tasks c task }
  /-- The session takes an event from the queue. -/
  | serve {w : World σ κ} {c : κ} {event : SessionEvent κ} {rest : List (κ × SessionEvent κ)}
      (hrunning : w.returned = false) (hqueue : w.queue = (c, event) :: rest)
      (answer : Except ActionError ActionOutcome) (link : κ → ServerEnvelope → Bool)
      {reaction : Reaction σ κ}
      (hreaction : w.session.react descriptions identities serde sink answer link event = reaction)
      (hanswer : ∀ action result, reaction.submitted = some (action, result) →
        w.session.recorder.lifecycle = .active →
          ∃ fuel, apply fuel w.session.recorder.state action = some answer) :
      Step w
        { session := reaction.session
          queue := rest
          tasks := admitTask w.tasks event reaction.admission
          returned := reaction.returned.isSome
          log := w.log ++ [⟨w.session, some (c, event), reaction⟩] }
  | interrupt {w : World σ κ} (hrunning : w.returned = false) :
      Step w { w with
        returned := true
        log := w.log ++ [⟨w.session, none, w.session.interrupted⟩] }

/-- The worlds that the session and its connections can reach, in any order of their steps. -/
def Reachable (recorder : RecordedMatch σ) (w : World σ κ) : Prop :=
  Relation.ReflTransGen (Step descriptions identities serde sink) (World.start recorder) w

end

end Summoners.Cli.Server
