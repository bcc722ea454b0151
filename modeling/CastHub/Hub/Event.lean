import CastHub.Hub.Creation
/-!
# Events for the hub

`Hub.handle` is the hub's entry for every event. Most events go on to the context that they are
addressed to; a few are the hub's own: opening a context, making an agent within the quotas,
the end of a media channel, and new configuration. Events for contexts that do not exist are dropped
without a fault; only a request for an agent is told that its context is missing.
-/

namespace CastHub

namespace Hub

/-- Hands an event to a context. -/
def deliver (hub : Hub) (c : Context) (e : Event) : HubTurn :=
  match c.receive e with
  | .error fault => { hub, outcome := .handled (.error fault) e }
  | .ok c =>
    match e.kind with
    | .contextCreateAgent =>
      let hub := hub.keep c
      match e.payload.contextMsg? with
      | none => { hub, outcome := .handled (.error .general) e }
      | some msg => hub.begin c msg (.event e)
    | _ =>
      let t := c.carryOut e
      { hub := hub.keep t.context, effects := t.effects, outcome := .handled t.result e }

/-- The context that an agent is requested for, and whether it was opened for it. -/
def contextFor (hub : Hub) (dst : Id) : Except Fault (Context × Bool × Hub) :=
  if dst = .unassigned then hub.openContext.map fun (c, hub) => (c, true, hub)
  else
    match hub.contexts.get? dst with
    | none => .error .contextNotFound
    | some c => .ok (c, false, hub)

/-- Handles a request for an agent. -/
def createAgent (hub : Hub) (e : Event) : HubTurn :=
  match e.payload.contextMsg? with
  | none => { hub, outcome := .handled (.error .general) e }
  | some msg =>
    if !hub.hasRoom msg.role then { hub, outcome := .handled (.error .serviceLimit) e }
    else
      match hub.contextFor e.dst with
      | .error fault => { hub, outcome := .handled (.error fault) e }
      | .ok (c, fresh, hub) =>
        match c.receive e with
        | .error fault => { hub, outcome := .handled (.error fault) { e with dst := c.id } }
        | .ok c => (hub.keep c).begin c msg (.request e fresh)

/-- Closes a context if no agent is left in it. -/
def closeIfEmpty (hub : Hub) (id : Id) : Hub × List Effect :=
  if (hub.contexts.get? id).any (·.isEmpty) then hub.closeContext id else (hub, [])

/-- Handles the end of a media channel: the channel's sink has gone, and with the last agent the
context goes too. -/
def channelDestroyed (hub : Hub) (e : Event) : HubTurn :=
  match hub.contexts.get? e.dst with
  | none => { hub, outcome := .handled (.ok ()) e }
  | some c =>
    match c.receive e with
    | .error fault =>
      let (hub, effects) := hub.closeIfEmpty c.id
      { hub, effects, outcome := .handled (.error fault) e }
    | .ok c =>
      let t := c.agentDestroyed e
      let (hub, effects) := (hub.keep t.context).closeIfEmpty c.id
      { hub, effects := t.effects ++ effects, outcome := .handled t.result e }

/-- Passes an event on to the context that it is addressed to. -/
def forward (hub : Hub) (e : Event) : HubTurn :=
  match hub.contexts.get? e.dst with
  | none => { hub, outcome := .handled (.ok ()) e }
  | some c => hub.deliver c e

/-- Handles an event. -/
def handle (hub : Hub) (e : Event) : HubTurn :=
  match e.kind with
  | .configure => { hub := hub.configure e.payload, outcome := .handled (.ok ()) e }
  | .createContext =>
    match hub.openContext with
    | .error fault => { hub, outcome := .handled (.error fault) e }
    | .ok (c, hub) => { hub, outcome := .handled (.ok ()) { e with dst := c.id } }
  | .createAgent => hub.createAgent e
  | .channelDestroyed => hub.channelDestroyed e
  | _ => hub.forward e

end Hub

end CastHub
