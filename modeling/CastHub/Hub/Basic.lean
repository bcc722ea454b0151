import CastHub.Config
import CastHub.Context
/-!
# The hub

The hub owns all contexts, the identities, the session classes and the quotas.

* `Hub.openContext` and `Hub.closeContext` make and release contexts. When the last one goes, the
  platform's audio routing is given back.
* `Hub.inUse` counts the agents that a quota counts: those that are there and those that are being
  made. Making an agent waits for others (`Creation`), and meanwhile the hub may be asked anything
  else.
* A context that has been released is still on record (`Hub.detached`): an agent may be in the
  making there, or somebody may still have hold of one of its agents.
-/

namespace CastHub

/-- Who asked for an agent, and so who is told how it went. -/
inductive Origin where
  /-- The context was asked directly. -/
  | direct
  /-- The context was sent an event. -/
  | event (event : Event)
  /-- The hub was sent a request. `fresh` says that the context was opened for it. -/
  | request (event : Event) (fresh : Bool)

/-- Whether the quotas count an agent while it is being made. -/
def Origin.isCounted : Origin → Bool
  | .request _ _ => true
  | _ => false

/-- What an agent in the making waits for. -/
inductive Awaited where
  /-- Its session is being built. -/
  | session (session : Session)
  /-- The media channel has been asked for a channel. -/
  | channel

/-- An agent in the making. -/
structure Creation where
  context : Id
  agent : Agent
  awaited : Awaited
  origin : Origin

/-- The hub. -/
structure Hub where
  classes : SessionClasses
  ids : IdSource := {}
  /-- How many numbered sessions have been made. -/
  sessions : Nat := 0
  config : Config := .empty
  limits : Limits := {}
  logOn : Bool := false
  contexts : Table Id Context := []
  /-- The contexts that have been released. -/
  detached : Table Id Context := []
  /-- The agents in the making, the latest first. Whoever builds a session or assigns a channel may
  use the hub meanwhile, so a later creation ends before an earlier one. -/
  creations : List Creation := []
  /-- How long a context waits for the media channel, in milliseconds. -/
  syncTimeout : Nat := 3000

/-- How an operation on the hub stands: it has an answer, or it waits for somebody. -/
inductive Outcome where
  /-- An event was handled; identities that were assigned are written into it. -/
  | handled (result : Except Fault Unit) (event : Event)
  /-- A context that was asked directly has made an agent, or not. -/
  | created (result : Except Fault Id)
  /-- A session of a class is to be built. -/
  | building (className : String)
  /-- The media channel is to answer a request. -/
  | asking (request : Event)

/-- What an operation on the hub comes to. -/
structure HubTurn where
  hub : Hub
  effects : List Effect := []
  outcome : Outcome

namespace Hub

/-! ## Contexts -/

/-- A context by its identity, released or not. -/
def context? (hub : Hub) (id : Id) : Option Context :=
  (hub.contexts.get? id).or (hub.detached.get? id)

/-- Writes a context back to where it is. -/
def keep (hub : Hub) (c : Context) : Hub :=
  if hub.contexts.has c.id then { hub with contexts := hub.contexts.put c.id c }
  else { hub with detached := hub.detached.put c.id c }

/-- A context can be spoken to as long as the hub holds it, or an agent is being made in it. -/
def reaches (hub : Hub) (id : Id) : Bool :=
  hub.contexts.has id || hub.creations.any (·.context = id)

/-- Opens a context, unless there are too many. Should its number have come round to a context that
is still held, that one is held no longer. -/
def openContext (hub : Hub) : Except Fault (Context × Hub) :=
  if hub.limits.contexts ≤ hub.contexts.length then .error .serviceLimit
  else
    let (id, ids) := hub.ids.mint
    let c : Context := { id }
    .ok (c, { hub with ids, contexts := hub.contexts.put id c })

/-- Releases a context, if the hub holds it. -/
def closeContext (hub : Hub) (id : Id) : Hub × List Effect :=
  match hub.contexts.get? id with
  | none => (hub, [])
  | some c =>
    let contexts := hub.contexts.erase id
    ({ hub with contexts, detached := hub.detached.put id c.release },
      if contexts.isEmpty then [.resetAudio] else [])

/-- A closed context is not held. -/
theorem get?_closeContext {hub : Hub} {id : Id} :
    (hub.closeContext id).1.contexts.get? id = none := by
  unfold closeContext
  split
  · assumption
  · simp [Table.get?_erase]

/-! ## Quotas -/

/-- How many agents of a role all contexts hold. -/
def live (hub : Hub) (role : Role) : Nat := hub.contexts.foldr (fun e n => e.2.count role + n) 0

/-- How many agents of a role are being made within their quota. -/
def pending (hub : Hub) (role : Role) : Nat :=
  hub.creations.countP fun c => c.origin.isCounted && c.agent.role = role

/-- How much of a quota is used up. -/
def inUse (hub : Hub) (role : Role) : Nat := hub.live role + hub.pending role

/-- Whether one more agent of a role fits in the quota. -/
def hasRoom (hub : Hub) (role : Role) : Bool := hub.inUse role < hub.limits.agents role

/-! ## Configuration -/

/-- Takes the limits and the network log's switch from the configuration. The switch stays as it is
if the configuration does not mention it. -/
def applyConfig (hub : Hub) : Hub :=
  { hub with
    limits := .ofConfig hub.config
    logOn := hub.config.networkLog?.getD hub.logOn }

/-- Starts from a configuration. -/
def init (hub : Hub) (config : Config) : Hub := { hub with config }.applyConfig

/-- Takes a part of a configuration that was pushed. What is no object is passed over. -/
def configure (hub : Hub) (payload : Payload) : Hub :=
  match payload with
  | .configure data =>
    match Config.ofValue data with
    | .error _ => hub
    | .ok push => { hub with config := hub.config.overlay push }.applyConfig
  | _ => hub

/-! ## Sessions -/

/-- A new session of a class, if the class is known. -/
def newSession? (hub : Hub) (className : String) : Option (Session × Hub) :=
  (hub.classes.get? className).map fun cls =>
    if cls.isRecorded then
      let number := hub.sessions + 1
      ({ cls, number := some number }, { hub with sessions := number })
    else ({ cls, number := none }, hub)

end Hub

end CastHub
