import CastHub.Hub.Event
import CastHub.MediaChannel
import CastHub.Rehearsal.Agent
/-!
# Rehearsing a hub

A hub on stage, with a loopback media channel beside it. Posts are not delivered until they are
pumped, and everything that waits can be used to do something else meanwhile: building a session of
a class, and asking the media channel, both have actions that run before they end. So every order of
nested operations can be played through.

* `HubAction` : what can be done.
* `HubStage.perform` : does it; actions nest, so it takes fuel.
* `HubStage.step` : does one thing and shows what happened during it (`Scene`).
-/

namespace CastHub

/-- What can be done with a hub on stage. -/
inductive HubAction where
  /-- Makes a session class known, with what is to be done while a session of it is built. -/
  | register (className : String) (cls : SessionClass) (onCreate : List HubAction)
  /-- Says how the media channel is to answer the next questions, if not as a loopback channel, and
  what is to be done before it answers. -/
  | plan (answers : List (Option (Except Fault Event) × List HubAction))
  /-- Gets hold of an agent, so that it can be used after it has left its context. -/
  | hold (context agent : Id)
  /-- Does something to an agent. -/
  | agent (context agent : Id) (action : AgentAction)
  /-- Hands an event to a context. -/
  | contextEvent (context : Id) (event : Event)
  /-- Asks a context for an agent. -/
  | create (context : Id) (msg : ContextMsg)
  /-- Begins a teardown. -/
  | destroyAgent (context : Id) (event : Event)
  /-- Ends a teardown. -/
  | agentDestroyed (context : Id) (event : Event)
  | settleSink (context sink : Id)
  | release (context : Id)
  /-- Hands a status message to a context. -/
  | route (context : Id) (msg : StatusMsg)
  /-- Whether a sink has no sources. -/
  | hasNoSources (context sink : Id)
  | hasAgent (context agent : Id)
  | init (config : Config)
  /-- Hands an event to the hub. -/
  | event (event : Event)
  | closeContext (context : Id)
  | hasRoom (role : Role)
  | hasContext (context : Id)
  /-- Delivers queued posts, at most so many. -/
  | pump (limit : Option Nat)

/-- What became of a delivered post. -/
inductive Delivery where
  | handled (result : Except Fault Unit)
  | mediaChannel
  | interaction
  | dropped

/-- What doing something with a hub on stage comes to. -/
inductive HubAnswer where
  | nothing
  | flag (value : Bool)
  | result (result : Except Fault Unit)
  | created (result : Except Fault Id)
  | handled (result : Except Fault Unit) (event : Event)
  | ofAgent (answer : AgentAnswer)
  | noAgent
  | noContext
  | pumped (deliveries : List (Event × Delivery))

/-- A hub on stage. -/
structure HubStage where
  hub : Hub
  channel : MediaChannel := {}
  /-- How the media channel is to answer. -/
  answers : List (Option (Except Fault Event) × List HubAction) := []
  onCreate : Table String (List HubAction) := []
  /-- The agents that somebody has hold of, each with its context. -/
  held : List (Id × Id) := []
  /-- How often the audio routing was given back. -/
  resets : Nat := 0
  /-- Posts of earlier steps. -/
  queue : List Event := []
  /-- Posts that no pump has taken yet. -/
  posted : List Event := []
  /-- Questions to the media channel. -/
  asked : List Event := []
  notes : List NumberedNote := []
  /-- What nested actions came to, in the order in which they ended. -/
  nested : List HubAnswer := []

/-- What one step showed. -/
structure Scene where
  answer : HubAnswer
  posted : List Event
  asked : List Event
  notes : List NumberedNote
  nested : List HubAnswer

namespace HubStage

/-! ## Effects -/

/-- Takes note of an effect. -/
def witness (stage : HubStage) : Effect → HubStage
  | .post e => { stage with posted := stage.posted ++ [e] }
  | .call s c => { stage with notes := stage.notes ++ (AgentAct.call s c).note?.toList }
  | .resetAudio => { stage with resets := stage.resets + 1 }

/-- Takes note of several effects. -/
def witnessAll (stage : HubStage) (effects : List Effect) : HubStage := effects.foldl witness stage

/-- Takes over what an operation on the hub came to. -/
def adopt (stage : HubStage) (t : HubTurn) : HubStage :=
  { stage with hub := t.hub }.witnessAll t.effects

/-- Takes over what an operation on a context came to. -/
def adoptContext (stage : HubStage) (t : ContextTurn) : HubStage :=
  { stage with hub := stage.hub.keep t.context }.witnessAll t.effects

/-! ## Agents by hand -/

/-- Where an agent can be got at: in its context, or held. -/
def locate? (stage : HubStage) (context agent : Id) : Option (Id × Id) :=
  if (stage.hub.contexts.get? context).any (·.agents.has agent) then some (context, agent)
  else stage.held.find? (·.2 = agent)

/-- How it ends when an agent hands a message to its context. -/
def ending (stage : HubStage) (context : Id) : Except Fault Unit :=
  if stage.hub.reaches context then .ok () else .error .general

/-- Does something to an agent. -/
def act (stage : HubStage) (context agent : Id) (action : AgentAction) : HubStage × HubAnswer :=
  match stage.locate? context agent with
  | none => (stage, .noAgent)
  | some (context, agent) =>
    match stage.hub.context? context with
    | none => (stage, .noAgent)
    | some c =>
      match (c.agents.get? agent).or (c.retired.get? agent) with
      | none => (stage, .noAgent)
      | some a =>
        let run := action.run (stage.ending context)
        let t :=
          if c.agents.has agent then c.tell agent fun a => (run a).1
          else c.tellRetired agent (stage.hub.reaches context) fun a => (run a).1
        (stage.adoptContext t, .ofAgent (run a).2)

/-! ## Playing -/

/-- Answers the question that an operation waits with. -/
def reply (stage : HubStage) (answer : Option (Except Fault Event)) (question : Event) :
    Except Fault Event × HubStage :=
  match answer with
  | some answer => (answer, stage)
  | none =>
    let (answer, channel) := stage.channel.ask question
    (answer, { stage with channel })

/-- Puts the fresh posts at the end of the queue. -/
def enqueue (stage : HubStage) : HubStage :=
  { stage with queue := stage.queue ++ stage.posted, posted := [] }

/-- Lets an operation loose on a context that the hub holds. -/
def inContext (stage : HubStage) (context : Id) (f : Context → HubStage × HubAnswer) :
    HubStage × HubAnswer :=
  match stage.hub.contexts.get? context with
  | none => (stage, .noContext)
  | some c => f c

/-- Lets an operation with a result loose on a context. -/
def turnContext (stage : HubStage) (context : Id) (f : Context → ContextTurn) :
    HubStage × HubAnswer :=
  stage.inContext context fun c =>
    let t := f c
    (stage.adoptContext t, .result t.result)

mutual

/-- Does one thing. -/
def perform : Nat → HubStage → HubAction → HubStage × HubAnswer
  | 0, stage, _ => (stage, .nothing)
  | fuel + 1, stage, action =>
    match action with
    | .register className cls onCreate =>
      ({ stage with
          hub := { stage.hub with classes := stage.hub.classes.put className cls }
          onCreate := stage.onCreate.put className onCreate }, .nothing)
    | .plan answers => ({ stage with answers := stage.answers ++ answers }, .nothing)
    | .hold context agent =>
      let isHere := (stage.hub.contexts.get? context).any (·.agents.has agent)
      ({ stage with held := if isHere then (context, agent) :: stage.held else stage.held },
        .nothing)
    | .agent context agent action => stage.act context agent action
    | .contextEvent context e =>
      stage.inContext context fun c => settle fuel stage (stage.hub.deliver c e)
    | .create context msg =>
      stage.inContext context fun c => settle fuel stage (stage.hub.begin c msg .direct)
    | .destroyAgent context e => stage.turnContext context (·.destroyAgent e)
    | .agentDestroyed context e => stage.turnContext context (·.agentDestroyed e)
    | .settleSink context sink =>
      stage.inContext context fun c => (stage.adoptContext (c.settleSink sink), .nothing)
    | .release context =>
      stage.inContext context fun c => (stage.adoptContext { context := c.release }, .nothing)
    | .route context msg =>
      stage.turnContext context fun c =>
        match c.route msg with
        | .error fault => { context := c, result := .error fault }
        | .ok e => { context := c, effects := [.post e] }
    | .hasNoSources context sink =>
      stage.inContext context fun c => (stage, .flag (!c.hasSourceOf sink))
    | .hasAgent context agent =>
      stage.inContext context fun c => (stage, .flag (c.agents.has agent))
    | .init config => ({ stage with hub := stage.hub.init config }, .nothing)
    | .event e => settle fuel stage (stage.hub.handle e)
    | .closeContext context =>
      let (hub, effects) := stage.hub.closeContext context
      ({ stage with hub }.witnessAll effects, .flag (stage.hub.contexts.has context))
    | .hasRoom role => (stage, .flag (stage.hub.hasRoom role))
    | .hasContext context => (stage, .flag (stage.hub.contexts.has context))
    | .pump limit =>
      let (stage, deliveries) := pump fuel stage limit
      (stage, .pumped deliveries)

/-- Does several things while something waits. -/
def performAll : Nat → HubStage → List HubAction → HubStage
  | 0, stage, _ => stage
  | _ + 1, stage, [] => stage
  | fuel + 1, stage, action :: rest =>
    let (stage, answer) := perform fuel stage action
    performAll fuel { stage with nested := stage.nested ++ [answer] } rest

/-- Sees an operation on the hub through to its end. -/
def settle : Nat → HubStage → HubTurn → HubStage × HubAnswer
  | 0, stage, _ => (stage, .nothing)
  | fuel + 1, stage, t =>
    let stage := stage.adopt t
    match t.outcome with
    | .handled result e => (stage, .handled result e)
    | .created result => (stage, .created result)
    | .building className =>
      let stage := performAll fuel stage ((stage.onCreate.get? className).getD [])
      match stage.hub.built with
      | none => (stage, .nothing)
      | some t => settle fuel stage t
    | .asking question =>
      let stage := { stage with asked := stage.asked ++ [question] }
      let (answer, meanwhile) := stage.answers.head?.getD (none, [])
      let stage := performAll fuel { stage with answers := stage.answers.tail } meanwhile
      let (answer, stage) := stage.reply answer question
      match stage.hub.answered answer with
      | none => (stage, .nothing)
      | some t => settle fuel stage t

/-- Delivers queued posts, at most so many; what they cause to be posted joins the queue. -/
def pump : Nat → HubStage → Option Nat → HubStage × List (Event × Delivery)
  | 0, stage, _ => (stage, [])
  | _ + 1, stage, some 0 => (stage, [])
  | fuel + 1, stage, limit =>
    let stage := stage.enqueue
    match stage.queue with
    | [] => (stage, [])
    | e :: rest =>
      let stage := { stage with queue := rest }
      let (stage, delivery) : HubStage × Delivery :=
        match e.target with
        | .hub | .context =>
          match settle fuel stage (stage.hub.handle e) with
          | (stage, .handled result _) => (stage, .handled result)
          | (stage, _) => (stage, .dropped)
        | .mediaChannel =>
          (stage.witnessAll ((MediaChannel.hear e).toList.map .post), .mediaChannel)
        | .interaction => (stage, .interaction)
        | _ => (stage, .dropped)
      let (stage, deliveries) := pump fuel stage (limit.map (· - 1))
      (stage, (e, delivery) :: deliveries)

end

/-! ## Steps -/

/-- The greatest depth and number of actions that a step is played to. -/
def patience : Nat := 100000

/-- Whether a step may call the sessions of several agents; they are then shown by session. -/
def showsBySession : HubAction → Bool
  | .event _ | .contextEvent _ _ | .destroyAgent _ _ | .pump _ => true
  | _ => false

/-- Does one thing and shows what happened. -/
def step (stage : HubStage) (action : HubAction) : HubStage × Scene :=
  let (stage, answer) := perform patience stage action
  let notes :=
    if showsBySession action then stage.notes.mergeSort (fun a b => a.1 ≤ b.1) else stage.notes
  let scene : Scene :=
    { answer, posted := stage.posted, asked := stage.asked, notes, nested := stage.nested }
  ({ stage.enqueue with asked := [], notes := [], nested := [] }, scene)

end HubStage

end CastHub
