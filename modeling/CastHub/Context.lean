import CastHub.Agent
/-!
# Contexts

A context holds the agents of one sharing session: sinks, and the sources attached to them.

* `Context.destroyAgent` begins a teardown. A sink with sources is only marked; its sources are torn
  down, and the sink follows when the last of them has gone.
* `Context.agentDestroyed` ends one. A sink never goes before its sources
  (`hasSourceOf_of_refused`).
* `Context.route` says what becomes of an agent's status message.

The creation of an agent waits for others half-way, so it belongs to the hub; here are the parts of
it that one context decides (`blankAgent`, `publish`).
-/

namespace CastHub

/-- What contexts and the hub do that others can see. -/
inductive Effect where
  /-- Sends an event on its way. -/
  | post (event : Event)
  /-- Calls an agent's session. -/
  | call (session : Session) (call : SessionCall)
  /-- Gives the platform's audio routing back. -/
  | resetAudio

/-- The agents of one sharing session. -/
structure Context where
  id : Id
  agents : Table Id Agent := []
  /-- The agents that have left. Whoever still has one of them can go on using it. -/
  retired : Table Id Agent := []
  /-- The client that made the latest request. -/
  interaction : Id := .unassigned
  /-- Whether the context has been released. -/
  destroying : Bool := false

/-- What an operation on a context comes to. -/
structure ContextTurn where
  context : Context
  effects : List Effect := []
  result : Except Fault Unit := .ok ()

namespace Context

/-! ## What a context knows -/

/-- How many agents of a role there are. -/
def count (c : Context) (role : Role) : Nat := c.agents.countP (·.2.role = role)

/-- Whether there are no agents. -/
def isEmpty (c : Context) : Bool := c.agents.isEmpty

/-- Whether an agent is a source of a given sink. -/
def isSourceOf (sink : Id) (a : Agent) : Bool := a.role = .source && a.sink = sink

/-- Whether a source is attached to a given sink. -/
def hasSourceOf (c : Context) (sink : Id) : Bool := c.agents.any fun e => isSourceOf sink e.2

/-- The identities of all sources. Nobody promises in what order they are told something; here it is
always the rising one. -/
def sources (c : Context) : List Id := (c.agents.filter (·.2.role = .source)).map (·.1)

/-! ## Status messages -/

/-- A message for the client that made the latest request. -/
def notice (c : Context) (kind : EventKind) (msg : InteractionMsg) : Event :=
  { kind, sender := .context, target := .interaction, src := c.id, dst := c.interaction,
    payload := .interaction msg }

/-- The event that a status message becomes. Messages for the media channel go to the channel of the
agent, if it is still here; those for the context come back to it by way of the hub. -/
def route (c : Context) (m : StatusMsg) : Except Fault Event :=
  match m.target with
  | .mediaChannel =>
    let channel := ((c.agents.get? m.agent).map (·.channel)).getD .unassigned
    .ok { kind := m.kind, sender := .context, target := .mediaChannel, src := c.id, dst := channel,
          payload := .channel ⟨m.agent, channel, m.agent, m.fault⟩ }
  | .context =>
    .ok { kind := m.kind, sender := .context, target := .hub, src := c.id, dst := c.id,
          payload := .context
            { ContextMsg.forAgent m.agent m.role with interaction := c.interaction } }
  | .interaction =>
    .ok (c.notice m.kind
      { context := c.id, agent := m.agent, role := m.role, fault := m.fault, step := m.step,
        detail := m.detail })
  | _ => .error .general

/-- Whatever a context sends in an agent's name bears the context's own identity. -/
theorem src_of_route {c : Context} {m : StatusMsg} {e : Event} (h : c.route m = .ok e) :
    e.src = c.id := by
  unfold route at h
  split at h
  · exact Except.ok.inj h ▸ rfl
  · exact Except.ok.inj h ▸ rfl
  · exact Except.ok.inj h ▸ rfl
  · cases h

/-- What others see of an agent's act. -/
def effectOf? (c : Context) : AgentAct → Option Effect
  | .call s k => some (.call s k)
  | .report m => (c.route m).toOption.map .post

/-! ## Speaking to agents -/

/-- Lets one agent do something. An agent that is not here does nothing. -/
def tell (c : Context) (id : Id) (act : Agent → AgentTurn) : ContextTurn :=
  match c.agents.get? id with
  | none => { context := c }
  | some a =>
    let t := act a
    { context := { c with agents := c.agents.put id t.agent }
      effects := t.acts.filterMap c.effectOf?
      result := t.result }

/-- Lets several agents do the same, in order. What it comes to for one of them does not keep the
others from it. -/
def tellAll (c : Context) (act : Agent → AgentTurn) : List Id → ContextTurn
  | [] => { context := c }
  | id :: rest =>
    let t := c.tell id act
    let u := t.context.tellAll act rest
    { u with effects := t.effects ++ u.effects }

/-- Speaking to all always succeeds. -/
theorem result_tellAll {c : Context} {act : Agent → AgentTurn} {ids : List Id} :
    (c.tellAll act ids).result = .ok () := by
  induction ids generalizing c with
  | nil => rfl
  | cons id rest ih => exact ih

/-- Lets an agent that has left do something. What it reports is passed on if `heard`. -/
def tellRetired (c : Context) (id : Id) (heard : Bool) (act : Agent → AgentTurn) : ContextTurn :=
  match c.retired.get? id with
  | none => { context := c }
  | some a =>
    let t := act a
    let isHeard : AgentAct → Bool
      | .call _ _ => true
      | .report _ => heard
    { context := { c with retired := c.retired.put id t.agent }
      effects := (t.acts.filter isHeard).filterMap c.effectOf?
      result := t.result }

/-! ## Making agents -/

/-- The sink that a new source is to be attached to. -/
def liveSink (c : Context) (id : Id) : Except Fault Agent :=
  match (c.agents.get? id).filter (·.role = .sink) with
  | none => .error .agentNotFound
  | some sink => if sink.destroying then .error .destroying else .ok sink

/-- A new agent, but for its identity: a sink without a channel, or a source on the channel of its
sink. -/
def blankAgent (c : Context) (msg : ContextMsg) : Except Fault (Id → Agent) :=
  match msg.role with
  | .sink => .ok .newSink
  | .source => (c.liveSink msg.sink).map fun sink id => .newSource id sink.id sink.channel

/-- Asks the media channel for a channel. -/
def channelRequest (context agent : Id) : Event :=
  { kind := .createChannel, sender := .context, target := .mediaChannel, src := context,
    payload := .channel ⟨agent, .unassigned, agent, none⟩ }

/-- The channel that the media channel's answer assigns. -/
def channelOf (answer : Except Fault Event) : Except Fault Id := do
  let reply ← answer
  let msg := reply.payload.channelMsg?
  match msg.bind (·.fault) with
  | some fault => .error fault
  | none =>
    let channel :=
      if reply.dst = .unassigned then (msg.map (·.channel)).getD .unassigned else reply.dst
    if channel = .unassigned then .error .general else .ok channel

/-- An assigned channel is a real one. -/
theorem channelOf_ne_unassigned {answer : Except Fault Event} {channel : Id}
    (h : channelOf answer = .ok channel) : channel ≠ .unassigned := by
  unfold channelOf at h
  cases answer with
  | error fault => cases h
  | ok reply =>
    simp only [bind, Except.bind] at h
    split at h
    · cases h
    · generalize (if reply.dst = Id.unassigned then _ else _ : Id) = assigned at h
      split at h
      · cases h
      · rename_i ne
        exact Except.ok.inj h ▸ ne

/-- Takes a new agent in. The sink of a source may have begun to go while the source was being
made; then the source is turned away. -/
def publish (c : Context) (a : Agent) : Except Fault Context :=
  let welcome : Bool :=
    match a.role with
    | .sink => true
    | .source => (c.agents.get? a.sink).any (!·.destroying)
  if welcome then .ok { c with agents := c.agents.put a.id a } else .error .destroying

/-! ## Unmaking agents -/

/-- Begins the teardown of the agent that an event names. -/
def destroyAgent (c : Context) (e : Event) : ContextTurn :=
  match e.agent? with
  | none => { context := c, result := .error .invalidId }
  | some id =>
    match c.agents.get? id with
    | none => { context := c }
    | some a =>
      match a.role with
      | .source => c.tellAll (·.handle e) [id]
      | .sink =>
        let c := { c with agents := c.agents.put id { a with destroying := true } }
        c.tellAll (·.handle e) (if c.hasSourceOf id then c.sources else [id])

/-- Asks a sink, in the context's own name, to destroy itself. -/
def sinkDestruction (c : Context) (sink : Id) : Event :=
  { kind := .contextDestroyAgent, sender := .context, target := .context, src := c.id, dst := c.id,
    payload := .context (.forAgent sink .sink) }

/-- Tears a sink down if it has been waiting for that, and no source is left. -/
def settleSink (c : Context) (sink : Id) : ContextTurn :=
  match c.agents.get? sink with
  | none => { context := c }
  | some a =>
    if a.destroying ∧ ¬ c.hasSourceOf sink then c.tellAll (·.handle (c.sinkDestruction sink)) [sink]
    else { context := c }

/-- Drops an agent from the context. -/
def retire (c : Context) (id : Id) (a : Agent) : Context :=
  { c with agents := c.agents.erase id, retired := c.retired.put id a }

/-- The notice that an agent is gone. -/
def goneNotice (c : Context) (a : Agent) : Event :=
  c.notice .noticeDestroyed { context := c.id, agent := a.id, role := a.role }

/-- Ends the teardown of the agent that an event names: it leaves, its sink may follow, and the
client is told. A sink that still has sources stays. -/
def agentDestroyed (c : Context) (e : Event) : ContextTurn :=
  match e.agent? with
  | none => { context := c, result := .error .invalidId }
  | some id =>
    match c.agents.get? id with
    | none => { context := c }
    | some a =>
      if a.role = .sink ∧ c.hasSourceOf id then { context := c, result := .error .general }
      else
        let c := c.retire id a
        let t : ContextTurn :=
          match a.role with
          | .source => c.settleSink a.sink
          | .sink => { context := c }
        { t with effects := t.effects ++ [.post (t.context.goneNotice a)] }

/-- A sink is only refused its leave while a source is attached to it. -/
theorem hasSourceOf_of_refused {c : Context} {e : Event} {id : Id} (named : e.agent? = some id)
    (h : (c.agentDestroyed e).result = .error .general) : c.hasSourceOf id = true := by
  simp only [agentDestroyed, named] at h
  split at h
  · cases h
  · split at h
    · rename_i kept
      exact kept.2
    · simp only at h
      split at h
      · simp only [settleSink] at h
        split at h
        · cases h
        · split at h
          · rw [result_tellAll] at h
            cases h
          · cases h
      · cases h

/-! ## Events -/

/-- Takes an event in: a released context refuses it, any other notes who asks. -/
def receive (c : Context) (e : Event) : Except Fault Context :=
  if c.destroying then .error .destroying
  else .ok { c with interaction := e.requester?.getD c.interaction }

/-- Passes an event on to the agent that it names. -/
def distribute (c : Context) (e : Event) : ContextTurn :=
  match e.agent? with
  | none => { context := c }
  | some id => c.tell id (·.handle e)

/-- Carries out an event that asks for no new agent. -/
def carryOut (c : Context) (e : Event) : ContextTurn :=
  match e.kind with
  | .contextDestroyAgent | .destroyAgent => c.destroyAgent e
  | .contextAgentDestroyed => c.agentDestroyed e
  | _ => c.distribute e

/-- Lets everything go at once. -/
def release (c : Context) : Context :=
  { c with
    agents := []
    retired := c.agents.foldl (fun retired e => retired.put e.1 e.2) c.retired
    destroying := true }

end Context

end CastHub
