import CastHub.Event.Kind
import CastHub.Fault
import CastHub.Ident
import CastHub.Json.Basic
/-!
# Events

An `Event` is an envelope (kind, sender, addressee) around a `Payload` of one of seven families.
Commands, answers and notices are all events; a request that was handled comes back with the
identities that were assigned on the way written into it.
-/

namespace CastHub

/-- What contexts and the hub are told about an agent to be made or unmade. -/
structure ContextMsg where
  className : String
  role : Role
  agent : Id
  sink : Id
  interaction : Id
deriving Repr, DecidableEq

namespace ContextMsg

/-- Asks for an agent of a session class; its identity is not assigned yet. -/
def create (className : String) (role : Role) : ContextMsg :=
  ⟨className, role, .unassigned, .unassigned, .unassigned⟩

/-- Speaks about an agent that exists. -/
def forAgent (agent : Id) (role : Role) : ContextMsg :=
  ⟨"", role, agent, .unassigned, .unassigned⟩

end ContextMsg

/-- A command to one agent, or the media channel's answer to one. -/
structure AgentMsg where
  agent : Id
  surface : Option UInt64 := none
  isMainSurface : Bool := false
  fault : Option Fault := none
deriving Repr, DecidableEq

/-- What contexts and the media channel exchange. -/
structure ChannelMsg where
  agent : Id
  channel : Id
  prosumer : Id
  fault : Option Fault := none
deriving Repr, DecidableEq

/-- What clients are told. -/
structure InteractionMsg where
  context : Id
  agent : Id
  role : Role
  fault : Option Fault := none
  step : Option RunStep := none
  detail : Option String := none
deriving Repr, DecidableEq

/-- News of an agent, handed to its context to be passed on to `target`. -/
structure StatusMsg where
  agent : Id
  role : Role
  target : Subsystem
  kind : EventKind
  fault : Option Fault := none
  step : Option RunStep := none
  detail : Option String := none
deriving Repr, DecidableEq

/-- What an event carries. -/
inductive Payload where
  | context (msg : ContextMsg)
  | agent (msg : AgentMsg)
  | channel (msg : ChannelMsg)
  | interaction (msg : InteractionMsg)
  | status (msg : StatusMsg)
  | configure (data : Json.Value)
  | empty

/-- The unit of exchange between subsystems. -/
structure Event where
  kind : EventKind
  sender : Subsystem
  target : Subsystem
  src : Id := .unassigned
  dst : Id := .unassigned
  payload : Payload

namespace Payload

/-- The agent that a payload speaks about. -/
def agent? : Payload → Option Id
  | context m => some m.agent
  | agent m => some m.agent
  | channel m => some m.agent
  | interaction m => some m.agent
  | status m => some m.agent
  | configure _ => none
  | empty => none

/-- The context message in a payload. -/
def contextMsg? : Payload → Option ContextMsg
  | context m => some m
  | _ => none

/-- The channel message in a payload. -/
def channelMsg? : Payload → Option ChannelMsg
  | channel m => some m
  | _ => none

/-- The interaction message in a payload. -/
def interactionMsg? : Payload → Option InteractionMsg
  | interaction m => some m
  | _ => none

/-- The agent message in a payload. -/
def agentMsg? : Payload → Option AgentMsg
  | agent m => some m
  | _ => none

/-- Writes an agent's identity into a context message; other payloads stay as they are. -/
def withContextAgent (payload : Payload) (id : Id) : Payload :=
  match payload with
  | context m => context { m with agent := id }
  | other => other

/-- A context message shows the identity that was written into it. -/
theorem agent?_withContextAgent {payload : Payload} {m : ContextMsg}
    (h : payload.contextMsg? = some m) (id : Id) :
    (payload.withContextAgent id).agent? = some id := by
  cases payload <;> first | rfl | cases h

end Payload

namespace Event

/-- The agent that an event speaks about. -/
def agent? (e : Event) : Option Id := e.payload.agent?

/-- The client that an event speaks for: the one named in a context message, else the sender if the
event comes from the interaction layer. -/
def requester? (e : Event) : Option Id :=
  let named := (e.payload.contextMsg?.map (·.interaction)).getD .unassigned
  if named ≠ .unassigned then some named
  else if e.sender = .interaction ∧ e.src ≠ .unassigned then some e.src
  else none

end Event

end CastHub
