import CastHub.Event.Codec
/-!
# Replies to clients

What a client is told about its request. `Reply.ofResult` makes the reply out of the handled event,
into which the hub has written the identities that it assigned.
-/

namespace CastHub

open JsonTree (Decoder record? tagged? need)

/-- What a client is told. -/
inductive Reply where
  | contextCreated (context : Id)
  | agentCreated (context agent : Id)
  | ack
  | error (code : Int) (message : String)
deriving Repr, DecidableEq

namespace Reply

/-- The reply that tells of a fault. -/
def ofFault (fault : Fault) : Reply := error fault.code fault.message

/-- The reply to a request that was handled. -/
def ofResult : Except Fault Event → Reply
  | .error fault => ofFault fault
  | .ok e =>
    match e.kind with
    | .createContext => contextCreated e.dst
    | .createAgent => agentCreated e.dst (e.agent?.getD .unassigned)
    | _ => ack

/-- A reply as a record. -/
def toJson : Reply → Json
  | contextCreated context =>
    .obj [("type", .str "context_created"), ("context_id", idJson context)]
  | agentCreated context agent =>
    .obj [("type", .str "agent_created"), ("context_id", idJson context),
      ("agent_id", idJson agent)]
  | ack => .obj [("type", .str "ack")]
  | error code message =>
    .obj [("type", .str "error"), ("code", .int code), ("message", .str message)]

/-- A reply as one line for clients. -/
def line (reply : Reply) : String := reply.toJson.render ++ "\n"

/-- A reply as one line for people. -/
def describe : Reply → String
  | contextCreated context => s!"ContextCreated \x7b context_id: {context} \x7d"
  | agentCreated context agent =>
    s!"AgentCreated \x7b context_id: {context}, agent_id: {agent} \x7d"
  | ack => "Ack"
  | error code message => s!"Error \x7b code: {code}, message: \"{message}\" \x7d"

/-- Decodes a reply of a given type. -/
def decodeBody (type : String) : Decoder Reply := fun place tree => do
  match type with
  | "context_created" =>
    let (fields, place) ← tree.record? ["context_id"] place
    match fields with
    | [context] => some (contextCreated (← need .word32 place context))
    | _ => none
  | "agent_created" =>
    let (fields, place) ← tree.record? ["context_id", "agent_id"] place
    match fields with
    | [context, agent] =>
      some (agentCreated (← need .word32 place context) (← need .word32 place agent))
    | _ => none
  | "ack" =>
    let _ ← tree.record? [] place
    some ack
  | "error" =>
    let (fields, place) ← tree.record? ["code", "message"] place
    match fields with
    | [code, message] =>
      some (error (← need (.integer (-0x80000000) 0x7FFFFFFF) place code)
        (← need .text place message))
    | _ => none
  | _ => none

/-- Decodes a reply. -/
def decode : Decoder Reply := fun place tree => do
  let (type, body) ← tree.tagged? "type" place
  decodeBody type place.setAside body

/-- Reads a reply from a text. -/
def parse? (text : String) : Option Reply :=
  (JsonTree.parse? text).bind (decode .top)

end Reply

end CastHub
