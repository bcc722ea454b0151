import CastHub.Hub.Basic
/-!
# Making agents

An agent is made in stages. Its identity comes first; then its session is built, by code that knows
the session's class; a sink then gets its channel from the media channel; and last the agent is
published in its context. `Hub.begin`, `Hub.built` and `Hub.answered` are the three ends of the two
waits. Between them the hub answers whatever it is asked, so what was true of the context at the
beginning is looked at again when the agent is published.
-/

namespace CastHub

namespace Hub

/-- Tells whoever asked for an agent how it went. A context that was opened for an agent that could
not be made is closed again. -/
def conclude (hub : Hub) (context : Id) (origin : Origin) (result : Except Fault Id) : HubTurn :=
  let ended := result.map fun _ => ()
  let withAgent (e : Event) : Event :=
    { e with payload := e.payload.withContextAgent (result.toOption.getD .unassigned) }
  match origin with
  | .direct => { hub, outcome := .created result }
  | .event e => { hub, outcome := .handled ended (withAgent e) }
  | .request e fresh =>
    if fresh && !result.isOk && (hub.context? context).all (·.isEmpty) then
      let (hub, effects) := hub.closeContext context
      { hub, effects, outcome := .handled ended { withAgent e with dst := .unassigned } }
    else { hub, outcome := .handled ended { withAgent e with dst := context } }

/-- Begins to make an agent in a context. -/
def begin (hub : Hub) (c : Context) (msg : ContextMsg) (origin : Origin) : HubTurn :=
  match c.blankAgent msg with
  | .error fault => hub.conclude c.id origin (.error fault)
  | .ok blank =>
    let (id, ids) := hub.ids.mint
    let hub := { hub with ids }
    match hub.newSession? msg.className with
    | none => hub.conclude c.id origin (.error .sessionCreate)
    | some (session, hub) =>
      let creation : Creation := ⟨c.id, blank id, .session session, origin⟩
      { hub := { hub with creations := creation :: hub.creations }
        outcome := .building msg.className }

/-- Publishes an agent that is ready. -/
def enlist (hub : Hub) (context : Id) (agent : Agent) (origin : Origin) : HubTurn :=
  match hub.context? context with
  | none => hub.conclude context origin (.error .contextNotFound)
  | some c =>
    match c.publish agent with
    | .error fault => hub.conclude context origin (.error fault)
    | .ok c => (hub.keep c).conclude context origin (.ok agent.id)

/-- The session of the latest agent in the making has been built. A source is ready then; a sink
needs a channel. `none` if no session is awaited. -/
def built (hub : Hub) : Option HubTurn :=
  match hub.creations with
  | ⟨context, agent, .session session, origin⟩ :: rest =>
    let agent := { agent with session := some session }
    match agent.role with
    | .source => some ({ hub with creations := rest }.enlist context agent origin)
    | .sink =>
      some
        { hub := { hub with creations := ⟨context, agent, .channel, origin⟩ :: rest }
          outcome := .asking (Context.channelRequest context agent.id) }
  | _ => none

/-- The media channel has answered for the latest agent in the making. `none` if it was not
asked. -/
def answered (hub : Hub) (answer : Except Fault Event) : Option HubTurn :=
  match hub.creations with
  | ⟨context, agent, .channel, origin⟩ :: rest =>
    let hub := { hub with creations := rest }
    match Context.channelOf answer with
    | .error fault => some (hub.conclude context origin (.error fault))
    | .ok channel => some (hub.enlist context { agent with channel } origin)
  | _ => none

end Hub

end CastHub
