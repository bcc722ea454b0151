import CastHub.Event.Basic
import CastHub.Json.Reader
import CastHub.Json.Record
/-!
# Events as JSON

`Event.toJson` writes an event as a record; fields that are absent are left out. `Event.decode`
reads a record back, and `Event.parse?` reads one from a text.

A payload is a record of two fields, `kind` and `msg`. If `msg` stands before `kind` it is set aside
until `kind` has told what it is.
-/

namespace CastHub

open JsonTree (Decoder record? need may mayElse)

/-- A number of 32 bits as JSON. -/
def idJson (id : Id) : Json := .int id.toNat

/-- A field that is written only if it is there. -/
def optionalField {α : Type} (key : String) (encode : α → Json) (value : Option α) : Json.Fields :=
  match value with
  | none => []
  | some a => [(key, encode a)]

namespace ContextMsg

/-- A context message as a record. -/
def toJson (m : ContextMsg) : Json :=
  .obj [("class_name", .str m.className), ("agent_type", .str m.role.name),
    ("agent_id", idJson m.agent), ("sink_agent_id", idJson m.sink),
    ("interaction_id", idJson m.interaction)]

/-- Decodes a context message. -/
def decode : Decoder ContextMsg := fun place tree => do
  let (fields, place) ←
    tree.record? ["class_name", "agent_type", "agent_id", "sink_agent_id", "interaction_id"] place
  match fields with
  | [className, role, agent, sink, interaction] =>
    some ⟨← need .text place className, ← need (.named Role.ofName?) place role,
      ← need .word32 place agent, ← need .word32 place sink,
      ← need .word32 place interaction⟩
  | _ => none

end ContextMsg

namespace AgentMsg

/-- An agent message as a record. -/
def toJson (m : AgentMsg) : Json :=
  .obj ([("agent_id", idJson m.agent)]
    ++ optionalField "surface_id" (fun s => .int s.toNat) m.surface
    ++ [("is_main_surface", .bool m.isMainSurface)]
    ++ optionalField "error_code" (fun f => .str f.name) m.fault)

/-- Decodes an agent message. -/
def decode : Decoder AgentMsg := fun place tree => do
  let (fields, place) ←
    tree.record? ["agent_id", "surface_id", "is_main_surface", "error_code"] place
  match fields with
  | [agent, surface, isMain, fault] =>
    some ⟨← need .word32 place agent, ← may .word64 place surface,
      ← mayElse false .truth place isMain, ← may (.named Fault.ofName?) place fault⟩
  | _ => none

end AgentMsg

namespace ChannelMsg

/-- A channel message as a record. -/
def toJson (m : ChannelMsg) : Json :=
  .obj ([("agent_id", idJson m.agent), ("channel_id", idJson m.channel),
      ("prosumer_id", idJson m.prosumer)]
    ++ optionalField "error_code" (fun f => .str f.name) m.fault)

/-- Decodes a channel message. -/
def decode : Decoder ChannelMsg := fun place tree => do
  let (fields, place) ←
    tree.record? ["agent_id", "channel_id", "prosumer_id", "error_code"] place
  match fields with
  | [agent, channel, prosumer, fault] =>
    some ⟨← need .word32 place agent, ← need .word32 place channel,
      ← need .word32 place prosumer, ← may (.named Fault.ofName?) place fault⟩
  | _ => none

end ChannelMsg

namespace InteractionMsg

/-- An interaction message as a record. -/
def toJson (m : InteractionMsg) : Json :=
  .obj ([("context_id", idJson m.context), ("agent_id", idJson m.agent),
      ("agent_type", .str m.role.name)]
    ++ optionalField "error_code" (fun f => .str f.name) m.fault
    ++ optionalField "step" (fun s => .str s.name) m.step
    ++ optionalField "detail" .str m.detail)

/-- Decodes an interaction message. -/
def decode : Decoder InteractionMsg := fun place tree => do
  let (fields, place) ← tree.record?
    ["context_id", "agent_id", "agent_type", "error_code", "step", "detail"] place
  match fields with
  | [context, agent, role, fault, step, detail] =>
    some ⟨← need .word32 place context, ← need .word32 place agent,
      ← need (.named Role.ofName?) place role, ← may (.named Fault.ofName?) place fault,
      ← may (.named RunStep.ofName?) place step, ← may .text place detail⟩
  | _ => none

end InteractionMsg

namespace StatusMsg

/-- A status message as a record. -/
def toJson (m : StatusMsg) : Json :=
  .obj ([("agent_id", idJson m.agent), ("agent_type", .str m.role.name),
      ("to_module", .str m.target.name), ("event_type", .str m.kind.name)]
    ++ optionalField "error_code" (fun f => .str f.name) m.fault
    ++ optionalField "step" (fun s => .str s.name) m.step
    ++ optionalField "detail" .str m.detail)

/-- Decodes a status message. -/
def decode : Decoder StatusMsg := fun place tree => do
  let (fields, place) ← tree.record?
    ["agent_id", "agent_type", "to_module", "event_type", "error_code", "step", "detail"] place
  match fields with
  | [agent, role, target, kind, fault, step, detail] =>
    some ⟨← need .word32 place agent, ← need (.named Role.ofName?) place role,
      ← need (.named Subsystem.ofName?) place target,
      ← need (.named EventKind.ofName?) place kind,
      ← may (.named Fault.ofName?) place fault,
      ← may (.named RunStep.ofName?) place step, ← may .text place detail⟩
  | _ => none

end StatusMsg

/-- Decodes a pushed configuration: a record of one field. -/
def decodePush : Decoder Json.Value := fun place tree => do
  let (fields, place) ← tree.record? ["data"] place
  match fields with
  | [data] => need .free place data
  | _ => none

/-- The families of payloads. -/
inductive PayloadKind where
  | context
  | agent
  | channel
  | interaction
  | status
  | configure
  | empty
deriving Repr, DecidableEq

namespace PayloadKind

/-- Every family. -/
def all : List PayloadKind := [context, agent, channel, interaction, status, configure, empty]

/-- The name of a family. -/
def name : PayloadKind → String
  | context => "context"
  | agent => "agent"
  | channel => "channel"
  | interaction => "interaction"
  | status => "agent_status"
  | configure => "configure"
  | empty => "empty"

/-- The family with a given name. -/
def ofName? (name : String) : Option PayloadKind := all.find? (·.name == name)

end PayloadKind

namespace Payload

/-- The family of a payload. -/
def kind : Payload → PayloadKind
  | context _ => .context
  | agent _ => .agent
  | channel _ => .channel
  | interaction _ => .interaction
  | status _ => .status
  | configure _ => .configure
  | empty => .empty

/-- The message in a payload; the empty payload has none. -/
def message? : Payload → Option Json
  | context m => some m.toJson
  | agent m => some m.toJson
  | channel m => some m.toJson
  | interaction m => some m.toJson
  | status m => some m.toJson
  | configure data => some (.obj [("data", data.json)])
  | empty => none

/-- A payload as a record. -/
def toJson (p : Payload) : Json :=
  .obj (("kind", .str p.kind.name) :: optionalField "msg" id p.message?)

/-- Decodes the message of a payload whose family is known. -/
def decodeMessage (kind : PayloadKind) : Decoder Payload := fun place tree =>
  match kind with
  | .context => (ContextMsg.decode place tree).map context
  | .agent => (AgentMsg.decode place tree).map agent
  | .channel => (ChannelMsg.decode place tree).map channel
  | .interaction => (InteractionMsg.decode place tree).map interaction
  | .status => (StatusMsg.decode place tree).map status
  | .configure => (decodePush place tree).map configure
  | .empty => if tree matches .null then some empty else none

/-- Decodes a payload that has no message. -/
def withoutMessage? : PayloadKind → Option Payload
  | .empty => some empty
  | _ => none

/-- The family named by a tree. -/
def decodeKind : Decoder PayloadKind := JsonTree.Decoder.named PayloadKind.ofName?

/-- Decodes a payload. -/
def decode : Decoder Payload := fun place tree =>
  match place.depth, tree with
  | depth + 1, .object fields =>
    let place := { place with depth }
    if fields.all (·.1.isSome) then
      match fields.filter fun f => f.1 == some "kind" || f.1 == some "msg" with
      | [(some "kind", kind)] => do withoutMessage? (← decodeKind place kind)
      | [(some "kind", kind), (some "msg", message)] => do
        decodeMessage (← decodeKind place kind) place message
      | [(some "msg", message), (some "kind", kind)] =>
        if message.isReadable place then do
          decodeMessage (← decodeKind place kind) place.setAside message
        else none
      | _ => none
    else none
  | depth + 1, .array [kind, message] => do
    let place := { place with depth }
    decodeMessage (← decodeKind place kind) place message
  | _, _ => none

end Payload

namespace Event

/-- An event as a record. -/
def toJson (e : Event) : Json :=
  .obj [("event_type", .str e.kind.name), ("from_module", .str e.sender.name),
    ("to_module", .str e.target.name), ("src_id", idJson e.src), ("dst_id", idJson e.dst),
    ("payload", e.payload.toJson)]

/-- Decodes an event. -/
def decode : Decoder Event := fun place tree => do
  let (fields, place) ← tree.record?
    ["event_type", "from_module", "to_module", "src_id", "dst_id", "payload"] place
  match fields with
  | [kind, sender, target, src, dst, payload] =>
    some ⟨← need (.named EventKind.ofName?) place kind,
      ← need (.named Subsystem.ofName?) place sender,
      ← need (.named Subsystem.ofName?) place target,
      ← need .word32 place src, ← need .word32 place dst,
      ← need Payload.decode place payload⟩
  | _ => none

/-- Reads an event from a text. -/
def parse? (text : String) : Option Event := (JsonTree.parse? text).bind (decode .top)

end Event

end CastHub
