import CastHub.Event.Codec
import CastHub.Surface
/-!
# Client requests

What a client may ask of the service. A request travels as a record whose field `type` says which
kind it is; `Request.parse?` reads one, `Request.toJson` writes one, and `Request.toEvent` is the
event that carries it to the hub.
-/

namespace CastHub

open JsonTree (Decoder record? tagged? need may mayElse)

/-- What a client asks for. -/
inductive Request where
  /-- An empty context. -/
  | createContext
  /-- An agent, in a given context or in one of its own. -/
  | createAgent (context : Option Id) (className : String) (role : Role) (sink : Option Id)
  /-- The end of an agent. -/
  | destroyAgent (context agent : Id)
  /-- That an agent does something. The surface is in its text form. -/
  | agentCommand (context agent : Id) (command : Command) (surface : Option String)
      (isMainSurface : Bool)
  /-- That a part of the configuration is changed. -/
  | configure (data : Json.Value)

namespace Request

/-- An identity that may be absent. -/
def optionalId (id : Option Id) : Json := id.elim .null idJson

/-- A request as a record. -/
def toJson : Request → Json
  | createContext => .obj [("type", .str "create_context")]
  | createAgent context className role sink =>
    .obj [("type", .str "create_agent"), ("context_id", optionalId context),
      ("class_name", .str className), ("agent_type", .str role.name),
      ("sink_agent_id", optionalId sink)]
  | destroyAgent context agent =>
    .obj [("type", .str "destroy_agent"), ("context_id", idJson context),
      ("agent_id", idJson agent)]
  | agentCommand context agent command surface isMainSurface =>
    .obj ([("type", .str "agent_command"), ("context_id", idJson context),
        ("agent_id", idJson agent), ("command", .str command.name)]
      ++ optionalField "surface" .str surface
      ++ [("is_main_surface", .bool isMainSurface)])
  | configure data => .obj [("type", .str "configure"), ("data", data.json)]

/-- Decodes a request of a given type. -/
def decodeBody (type : String) : Decoder Request := fun place tree => do
  match type with
  | "create_context" =>
    let _ ← tree.record? [] place
    some createContext
  | "create_agent" =>
    let (fields, place) ←
      tree.record? ["context_id", "class_name", "agent_type", "sink_agent_id"] place
    match fields with
    | [context, className, role, sink] =>
      some (createAgent (← may .word32 place context) (← need .text place className)
        (← need (.named Role.ofName?) place role) (← may .word32 place sink))
    | _ => none
  | "destroy_agent" =>
    let (fields, place) ← tree.record? ["context_id", "agent_id"] place
    match fields with
    | [context, agent] =>
      some (destroyAgent (← need .word32 place context) (← need .word32 place agent))
    | _ => none
  | "agent_command" =>
    let (fields, place) ←
      tree.record? ["context_id", "agent_id", "command", "surface", "is_main_surface"] place
    match fields with
    | [context, agent, name, surface, isMain] =>
      some (agentCommand (← need .word32 place context) (← need .word32 place agent)
        (← need (.named Command.ofName?) place name) (← may .text place surface)
        (← mayElse false .truth place isMain))
    | _ => none
  | "configure" => (decodePush place tree).map configure
  | _ => none

/-- Decodes a request. -/
def decode : Decoder Request := fun place tree => do
  let (type, body) ← tree.tagged? "type" place
  decodeBody type place.setAside body

/-- Reads a request from a text. -/
def parse? (text : String) : Option Request :=
  (JsonTree.parse? text).bind (decode .top)

/-- The event that carries a client's request to the hub. A surface that cannot be read is
refused. -/
def toEvent (request : Request) (client : Id) : Except Surface.Refusal Event :=
  let event (kind : EventKind) (context : Id) (payload : Payload) : Event :=
    { kind, sender := .interaction, target := .hub, src := client, dst := context, payload }
  match request with
  | createContext => .ok (event .createContext .unassigned .empty)
  | createAgent context className role sink =>
    .ok (event .createAgent (context.getD .unassigned) (.context
      { ContextMsg.create className role with
        sink := sink.getD .unassigned, interaction := client }))
  | destroyAgent context agent => .ok (event .contextDestroyAgent context (.agent { agent }))
  | agentCommand context agent command surface isMainSurface => do
    let surface ← surface.mapM Surface.decode
    .ok (event (.command command) context (.agent { agent, surface, isMainSurface }))
  | configure data => .ok (event .configure .unassigned (.configure data))

/-- No request says that somebody is gone. -/
theorem kind_of_toEvent {request : Request} {client : Id} {e : Event}
    (h : request.toEvent client = .ok e) :
    e.kind ≠ .contextAgentDestroyed ∧ e.kind ≠ .channelDestroyed := by
  unfold toEvent at h
  cases request with
  | agentCommand context agent command surface isMainSurface =>
    simp only [bind, Except.bind] at h
    split at h
    · cases h
    · exact Except.ok.inj h ▸ ⟨EventKind.noConfusion, EventKind.noConfusion⟩
  | _ => exact Except.ok.inj h ▸ ⟨EventKind.noConfusion, EventKind.noConfusion⟩

end Request

end CastHub
