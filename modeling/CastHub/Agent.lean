import CastHub.Session.Basic
/-!
# Agents

An agent is one endpoint of a sharing session: a sink that renders, or a source that produces for a
sink. It owns a session and takes it from run-step to run-step.

* `Agent.enter` admits run-steps. While a step is running only a heavier one may replace it;
  destruction replaces everything and is never left.
* `Agent.hear` takes the session's news: some end the current step, some are passed on to the
  agent's context as status messages.
* `Agent.handle` takes an event for the agent and drives the session accordingly.

Nothing here depends on what becomes of the status messages, so all operations are functions of the
agent: they return the agent afterwards and what it did on the way (`AgentAct`).
-/

namespace CastHub

/-- One endpoint of a sharing session. -/
structure Agent where
  id : Id
  role : Role
  /-- The sink that a source is attached to; unassigned for sinks. -/
  sink : Id
  /-- The media channel of the agent's sharing session. -/
  channel : Id
  /-- Whether teardown has begun. -/
  destroying : Bool := false
  step : RunStep := .idle
  status : StepStatus := .idle
  session : Option Session := none

/-- What an agent does that others can see. -/
inductive AgentAct where
  /-- Calls its session. -/
  | call (session : Session) (call : SessionCall)
  /-- Hands a status message to its context. -/
  | report (msg : StatusMsg)

/-- What an operation on an agent comes to. -/
structure AgentTurn where
  agent : Agent
  acts : List AgentAct := []
  result : Except Fault Unit := .ok ()

/-- Goes on with a second operation, whatever the first one came to. -/
def AgentTurn.followedBy (t : AgentTurn) (f : Agent → AgentTurn) : AgentTurn :=
  let u := f t.agent
  { u with acts := t.acts ++ u.acts }

namespace Agent

/-- A new sink. Its channel is assigned once it exists. -/
def newSink (id : Id) : Agent := { id, role := .sink, sink := .unassigned, channel := .unassigned }

/-- A new source of a sink, on the sink's channel. -/
def newSource (id sink channel : Id) : Agent := { id, role := .source, sink, channel }

/-! ## Run-steps -/

/-- How a run-step is received: entered, absorbed by destruction, or refused. -/
inductive Admission where
  | entered (agent : Agent)
  | absorbed
  | refused (fault : Fault)

/-- Asks for a run-step. An agent that is being destroyed absorbs every request, except that one
which has been destroyed refuses to be destroyed again. -/
def enter (a : Agent) (step : RunStep) : Admission :=
  if a.step = .destroy then
    if step = .destroy ∧ a.status = .done then .refused .general else .absorbed
  else if step ≠ .destroy ∧ a.status = .running ∧ step.weight ≤ a.step.weight then
    .refused .general
  else .entered { a with step, status := .running }

/-- An agent that enters a run-step was not being destroyed, and the run-step is running now. -/
theorem eq_of_entered {a b : Agent} {step : RunStep} (entry : a.enter step = .entered b) :
    a.step ≠ .destroy ∧ b = { a with step, status := .running } := by
  unfold enter at entry
  split at entry
  · split at entry <;> cases entry
  · rename_i alive
    split at entry
    · cases entry
    · exact ⟨alive, (Admission.entered.inj entry).symm⟩

/-- Destruction is entered unless the agent is in it already. -/
theorem enter_destroy {a : Agent} (alive : a.step ≠ .destroy) :
    a.enter .destroy = .entered { a with step := .destroy, status := .running } := by
  unfold enter
  rw [if_neg alive, if_neg fun held => held.1 rfl]

/-- Ends the current step. -/
def leave (a : Agent) (status : StepStatus) : Agent := { a with status }

/-! ## News from the session -/

/-- A bare status message about the agent. -/
def statusMsg (a : Agent) (target : Subsystem) (kind : EventKind) : StatusMsg :=
  { agent := a.id, role := a.role, target, kind }

/-- The subsystems that an agent may send status messages to. -/
def mayNotify : Subsystem → Bool
  | .mediaChannel | .context | .interaction => true
  | _ => false

/-- A status message on its way to the context, unless its target is out of bounds. -/
def reports (msg : StatusMsg) : List StatusMsg := if mayNotify msg.target then [msg] else []

/-- Takes a fault of the session. A fatal one ends the current step; the clients are told of
every one. -/
def hearFault (a : Agent) (fault : Fault) : Agent × List StatusMsg :=
  let a := if fault.isFatal then a.leave .error else a
  (a, reports { a.statusMsg .interaction .noticeError with fault := some fault })

/-- The current step has ended well; clients are told which. -/
def stepDone (a : Agent) : Agent × List StatusMsg :=
  (a.leave .done, reports { a.statusMsg .interaction .noticeStepDone with step := some a.step })

/-- What follows from the end of an agent's session: a sink gives its media channel up, a source
tells its context. -/
def farewell (a : Agent) : StatusMsg :=
  match a.role with
  | .sink => a.statusMsg .mediaChannel .destroyChannel
  | .source => a.statusMsg .context .contextAgentDestroyed

/-- Takes one piece of news: the agent afterwards and the status messages for its context. -/
def hear (a : Agent) (news : SessionNews) : Agent × List StatusMsg :=
  match news with
  | .prosumer change => (a, reports (a.statusMsg .mediaChannel (.changeMedia a.role change)))
  | .started | .stopped | .paused | .resumed | .stepDone _ => a.stepDone
  | .destroyed => (a.leave .done, reports a.farewell)
  | .interrupted => (a.leave .done, [])
  | .error fault => a.hearFault fault
  | .privateNews target kind detail =>
    (a, reports { a.statusMsg target kind with detail := detail })

/-- Takes several pieces of news, in order. -/
def hearAll (a : Agent) : List SessionNews → Agent × List StatusMsg
  | [] => (a, [])
  | news :: rest =>
    let (a, msgs) := a.hear news
    let (a, more) := a.hearAll rest
    (a, msgs ++ more)

/-! ## Driving the session -/

/-- How a call ends, given the session's reaction: only private events can be refused. -/
def callResult (c : SessionCall) (reaction : SessionReaction) : Except Fault Unit :=
  match c with
  | .privateEvent _ => reaction.result
  | _ => .ok ()

/-- Calls a session of the agent's, and takes the news it gives meanwhile. -/
def callSession (a : Agent) (s : Session) (c : SessionCall) : AgentTurn :=
  if s.accepts c then
    let (reaction, s') := s.call c
    let (a, msgs) := { a with session := some s' }.hearAll reaction.news
    { agent := a, acts := .call s c :: msgs.map .report, result := callResult c reaction }
  else { agent := a, result := .error .unsupported }

/-- Calls the agent's session; an agent without one fails. -/
def drive (a : Agent) (c : SessionCall) : AgentTurn :=
  match a.session with
  | none => { agent := a, result := .error .sessionCreate }
  | some s => a.callSession s c

/-- Takes an event that asks for a run-step. The session is shown surface commands before it enters
the step; what it makes of them does not matter. -/
def handleStep (a : Agent) (e : Event) (step : RunStep) : AgentTurn :=
  match a.enter step with
  | .refused fault => { agent := a, result := .error fault }
  | .absorbed => { agent := a }
  | .entered a =>
    let a := if step = .destroy then { a with destroying := true } else a
    if step = .appendSurface ∨ step = .removeSurface then
      (a.drive (.privateEvent e)).followedBy (·.drive (.operate step))
    else a.drive (.operate step)

/-- The fault that an event tells of. -/
def faultOf (e : Event) : Fault :=
  ((e.payload.agentMsg?.bind (·.fault)).or (e.payload.channelMsg?.bind (·.fault))).getD .general

/-- Takes an event. Once teardown has begun only events that belong to it are accepted. -/
def handle (a : Agent) (e : Event) : AgentTurn :=
  if a.destroying ∧ ¬ e.kind.isDestroyRelated then { agent := a, result := .error .destroying }
  else
    match e.kind with
    | .prosumerState change => a.drive (.media change)
    | .prosumerError =>
      let (a, msgs) := a.hearFault (faultOf e)
      { agent := a, acts := msgs.map .report }
    | kind =>
      if kind.step = .idle then { agent := a } else a.handleStep e kind.step

/-! ## Making a session -/

/-- Gives the agent its session. An agent that has one keeps it. -/
def attach (a : Agent) (s : Session) : Except Fault Agent :=
  match a.session with
  | none => .ok { a with session := some s }
  | some _ => .error .sessionCreate

end Agent

end CastHub
