/-!
# Faults

Every operation that can fail answers with one of these causes. A fault has a name, under which it
travels inside events, a number, under which it travels to clients, and a sentence for people.
-/

namespace CastHub

/-- Why an operation was refused or failed. -/
inductive Fault where
  | general
  | serviceLimit
  | sessionCreate
  | agentNotFound
  | contextNotFound
  | invalidId
  | destroying
  | syncTimeout
  | channelClosed
  | network
  | connection
  | interaction
  | protocolTimeout
  | intakeTimeout
  | decodeFormat
  | decode
  | playStart
  | unsupported
deriving Repr, DecidableEq

namespace Fault

/-- Every fault, by rising number. -/
def all : List Fault :=
  [general, serviceLimit, sessionCreate, agentNotFound, contextNotFound, invalidId, destroying,
   syncTimeout, channelClosed, network, connection, interaction, protocolTimeout, intakeTimeout,
   decodeFormat, decode, playStart, unsupported]

/-- The name under which a fault travels inside events. -/
def name : Fault → String
  | general => "GENERAL_ERROR"
  | serviceLimit => "SERVICE_LIMIT"
  | sessionCreate => "SESSION_CREATE"
  | agentNotFound => "AGENT_NOT_FOUND"
  | contextNotFound => "CONTEXT_NOT_FOUND"
  | invalidId => "INVALID_ID"
  | destroying => "DESTROYING"
  | syncTimeout => "SYNC_TIMEOUT"
  | channelClosed => "CHANNEL_CLOSED"
  | network => "NETWORK_ERROR"
  | connection => "CONNECTION_FAILURE"
  | interaction => "INTERACTION_FAILURE"
  | protocolTimeout => "PROTOCOL_INTERACTION_TIMEOUT"
  | intakeTimeout => "INTAKE_TIMEOUT"
  | decodeFormat => "DECODE_FORMAT"
  | decode => "DECODE_ERROR"
  | playStart => "PLAY_START_FAILURE"
  | unsupported => "UNSUPPORTED"

/-- The number under which a fault travels to clients; the groups leave room to grow. -/
def code : Fault → Int
  | general => 10001
  | serviceLimit => 10002
  | sessionCreate => 10003
  | agentNotFound => 10004
  | contextNotFound => 10005
  | invalidId => 10006
  | destroying => 10007
  | syncTimeout => 10008
  | channelClosed => 10009
  | network => 10020
  | connection => 10021
  | interaction => 10022
  | protocolTimeout => 10023
  | intakeTimeout => 10024
  | decodeFormat => 10030
  | decode => 10031
  | playStart => 10032
  | unsupported => 10040

/-- The sentence shown to people. -/
def message : Fault → String
  | general => "general error"
  | serviceLimit => "service limit reached"
  | sessionCreate => "session creation failed"
  | agentNotFound => "agent not found"
  | contextNotFound => "context not found"
  | invalidId => "invalid id"
  | destroying => "target is being destroyed"
  | syncTimeout => "synchronous call timed out"
  | channelClosed => "event channel closed"
  | network => "network error"
  | connection => "connection failure"
  | interaction => "interaction failure"
  | protocolTimeout => "protocol interaction timeout"
  | intakeTimeout => "intake timeout"
  | decodeFormat => "unsupported decode format"
  | decode => "decode error"
  | playStart => "play start failure"
  | unsupported => "operation not supported"

/-- A fatal fault ends the step that an agent is in: its session cannot recover. -/
def isFatal : Fault → Bool
  | network | connection | interaction | protocolTimeout | intakeTimeout => true
  | _ => false

/-- The fault with a given number. -/
def ofCode? (code : Int) : Option Fault := all.find? (·.code == code)

/-- The fault with a given name; case matters. -/
def ofName? (name : String) : Option Fault := all.find? (·.name == name)

/-- A number names at most one fault, and every fault is found by its number. -/
theorem ofCode?_code (f : Fault) : ofCode? f.code = some f := by cases f <;> rfl

end Fault

end CastHub
