import CastHub.Agent
/-!
# Rehearsing one session or one agent

A rehearsal puts a part of the system on a stage, does things to it by hand, and shows what it does.

* `SessionStage` holds one session and hears its news. News that nobody listens to are lost.
* `AgentStage` holds one agent and reads its status messages. Only the first listener that an agent
  is given counts; when it is gone, the agent speaks to nobody.
-/

namespace CastHub

/-- What a numbered session lets be known. -/
inductive SessionNote where
  /-- The session was called. -/
  | called (call : SessionCall)
  /-- The session had news, and nobody listened. -/
  | lost

/-- A note with the number of its session. -/
abbrev NumberedNote := Nat × SessionNote

/-- The note that an agent's act leaves; only numbered sessions leave any. -/
def AgentAct.note? : AgentAct → Option NumberedNote
  | .call s c => s.number.map (·, .called c)
  | .report _ => none

/-- The status message that an agent's act hands on. -/
def AgentAct.report? : AgentAct → Option StatusMsg
  | .call _ _ => none
  | .report m => some m

/-- What can be done to an agent by hand. -/
inductive AgentAction where
  | enter (step : RunStep)
  | leave (status : StepStatus)
  | handle (event : Event)
  | hear (news : SessionNews)
  | hearFault (fault : Fault)
  | announce (msg : StatusMsg)
  | setDestroying
  | setChannel (channel : Id)

/-- What doing something to an agent comes to. -/
inductive AgentAnswer where
  | nothing
  /-- Whether a run-step was entered. -/
  | admitted (result : Except Fault Bool)
  /-- The run-step that the agent is in. -/
  | step (step : RunStep)
  | result (result : Except Fault Unit)

namespace AgentAction

/-- Does something to an agent. `listener` is how it ends when the agent's listener is handed a
message. -/
def run (action : AgentAction) (listener : Except Fault Unit) (a : Agent) :
    AgentTurn × AgentAnswer :=
  match action with
  | enter step =>
    match a.enter step with
    | .entered a => ({ agent := a }, .admitted (.ok true))
    | .absorbed => ({ agent := a }, .admitted (.ok false))
    | .refused fault => ({ agent := a }, .admitted (.error fault))
  | leave status => ({ agent := a.leave status }, .step a.step)
  | handle e =>
    let t := a.handle e
    (t, .result t.result)
  | hear news =>
    let (a, msgs) := a.hear news
    ({ agent := a, acts := msgs.map .report }, .nothing)
  | hearFault fault =>
    let (a, msgs) := a.hearFault fault
    ({ agent := a, acts := msgs.map .report }, .nothing)
  | announce msg =>
    if Agent.mayNotify msg.target then
      ({ agent := a, acts := [.report msg], result := listener }, .result listener)
    else ({ agent := a, result := .error .general }, .result (.error .general))
  | setDestroying => ({ agent := { a with destroying := true } }, .nothing)
  | setChannel channel => ({ agent := { a with channel } }, .nothing)

end AgentAction

/-! ## A session on stage -/

/-- A session, and how many listeners it has been given since they were last sent away. The latest
one is the one that hears. -/
structure SessionStage where
  session : Session
  listeners : Nat := 0

namespace SessionStage

/-- Brings a session of a class on stage; it is the first. -/
def create (cls : SessionClass) : SessionStage :=
  { session := { cls, number := if cls.isRecorded then some 1 else none } }

/-- Calls the session: what each listener heard, the notes, and how the call ended. -/
def call (stage : SessionStage) (c : SessionCall) :
    SessionStage × List (List SessionNews) × List NumberedNote × Except Fault Unit :=
  let silence (n : Nat) : List (List SessionNews) := List.replicate n []
  if stage.session.accepts c then
    let (reaction, session) := stage.session.call c
    let note (n : SessionNote) : List NumberedNote := (session.number.map (·, n)).toList
    let lost := if stage.listeners = 0 then reaction.news.flatMap fun _ => note .lost else []
    let heard :=
      if stage.listeners = 0 then [] else silence (stage.listeners - 1) ++ [reaction.news]
    ({ stage with session }, heard, note (.called c) ++ lost, reaction.result)
  else (stage, silence stage.listeners, [], .error .unsupported)

end SessionStage

/-! ## An agent on stage -/

/-- An agent, the session classes that it may be given a session of, and its listeners. -/
structure AgentStage where
  agent : Agent
  classes : SessionClasses
  /-- How many numbered sessions have been made. -/
  sessions : Nat := 0
  /-- How many listeners there are. -/
  listeners : Nat := 0
  /-- How handing a message to the agent's listener ends; `none` if the agent never had one. -/
  listener : Option (Except Fault Unit) := none
  /-- Whether the first listener is still there. -/
  isHeard : Bool := false

namespace AgentStage

/-- Adds a listener. -/
def listen (stage : AgentStage) (ending : Except Fault Unit) : AgentStage :=
  let stage := { stage with listeners := stage.listeners + 1 }
  match stage.listener with
  | none => { stage with listener := some ending, isHeard := true }
  | some _ => stage

/-- Sends all listeners away. -/
def dropListeners (stage : AgentStage) : AgentStage :=
  { stage with listeners := 0, isHeard := false }

/-- How handing a message on ends. -/
def ending (stage : AgentStage) : Except Fault Unit :=
  if stage.isHeard then stage.listener.getD (.error .general) else .error .general

/-- What each listener was handed. -/
def received (stage : AgentStage) (acts : List AgentAct) : List (List StatusMsg) :=
  if stage.isHeard then
    acts.filterMap AgentAct.report? :: List.replicate (stage.listeners - 1) []
  else List.replicate stage.listeners []

/-- Gives the agent a session of a class. The session is made, and numbered, even if the agent has
one already. -/
def createSession (stage : AgentStage) (className : String) : AgentStage × Except Fault Unit :=
  match stage.classes.get? className with
  | none => (stage, .error .sessionCreate)
  | some cls =>
    let stage := if cls.isRecorded then { stage with sessions := stage.sessions + 1 } else stage
    let session : Session := { cls, number := if cls.isRecorded then some stage.sessions else none }
    match stage.agent.attach session with
    | .error fault => (stage, .error fault)
    | .ok agent => ({ stage with agent }, .ok ())

/-- Does something to the agent. -/
def act (stage : AgentStage) (action : AgentAction) : AgentStage × List AgentAct × AgentAnswer :=
  let (t, answer) := action.run stage.ending stage.agent
  ({ stage with agent := t.agent }, t.acts, answer)

end AgentStage

end CastHub
