import CastHub.RunStep
/-!
# Kinds of events

Everything that the hub, its contexts, the media channel and the interaction layer tell each other
is an event of one of these kinds, sent from one `Subsystem` to another. Names and numbers of kinds
are fixed: peers store and exchange them.
-/

namespace CastHub

/-- A part of the system that sends and receives events. -/
inductive Subsystem where
  | context
  /-- The owner of all contexts. -/
  | hub
  | mediaChannel
  | interaction
  | configure
  | window
  | unknown
deriving Repr, DecidableEq

namespace Subsystem

/-- Every subsystem. -/
def all : List Subsystem :=
  [context, hub, mediaChannel, interaction, configure, window, unknown]

/-- The name of a subsystem in events. -/
def name : Subsystem → String
  | context => "CONTEXT"
  | hub => "CONTEXT_MANAGER"
  | mediaChannel => "MEDIA_CHANNEL"
  | interaction => "INTERACTION"
  | configure => "CONFIGURE"
  | window => "WINDOW"
  | unknown => "UNKNOWN"

/-- The subsystem with a given name. -/
def ofName? (name : String) : Option Subsystem := all.find? (·.name == name)

end Subsystem

/-- What an event is about. -/
inductive EventKind where
  /-- Asks the hub for an empty context. -/
  | createContext
  /-- Asks the hub for an agent, in a given context or in a new one. -/
  | createAgent
  /-- Tells the hub that a media channel is gone, and with it its sink. -/
  | channelDestroyed
  /-- Asks a context for an agent. -/
  | contextCreateAgent
  /-- Asks a context to destroy an agent. -/
  | contextDestroyAgent
  /-- Tells a context that an agent has finished destroying. -/
  | contextAgentDestroyed
  /-- Pushes a part of the configuration. -/
  | configure
  /-- Drives an agent. -/
  | command (c : Command)
  /-- Asks for an agent's destruction, by the agent's own name for it. -/
  | destroyAgent
  | accelerationDone
  /-- The media channel tells an agent what became of its media object. -/
  | prosumerState (c : MediaChange)
  /-- The media channel tells an agent of a fault. -/
  | prosumerError
  /-- Asks the media channel for a channel, and waits for the answer. -/
  | createChannel
  /-- Asks the media channel to give a channel up. -/
  | destroyChannel
  /-- Asks the media channel to change a media object: a sink has a consumer, a source a
  producer. -/
  | changeMedia (role : Role) (c : MediaChange)
  /-- Tells a client that an agent is gone. -/
  | noticeDestroyed
  /-- Tells a client of a session's fault. -/
  | noticeError
  /-- Tells a client that a run-step has ended. -/
  | noticeStepDone
  /-- Carries a session's own news to a client. -/
  | noticePrivate
deriving Repr, DecidableEq

namespace EventKind

/-- Every kind of event, by rising number. -/
def all : List EventKind :=
  [createContext, createAgent, channelDestroyed,
   contextCreateAgent, contextDestroyAgent, contextAgentDestroyed,
   configure]
  ++ [command .start, command .stop, command .playStart, command .playStop, command .pause,
      command .resume, destroyAgent, command .appendSurface, command .removeSurface,
      accelerationDone]
  ++ MediaChange.all.map prosumerState
  ++ [prosumerError, createChannel, destroyChannel]
  ++ MediaChange.all.map (changeMedia .sink)
  ++ MediaChange.all.map (changeMedia .source)
  ++ [noticeDestroyed, noticeError, noticeStepDone, noticePrivate]

/-- The name under which a kind travels. -/
def name : EventKind → String
  | createContext => "EVENT_CONTEXTMGR_CREATE"
  | createAgent => "EVENT_CONTEXTMGR_AGENT_CREATE"
  | channelDestroyed => "EVENT_CONTEXTMGR_STATE_CHANNEL_DESTROY"
  | contextCreateAgent => "EVENT_CONTEXT_AGENT_CREATE"
  | contextDestroyAgent => "EVENT_CONTEXT_AGENT_DESTROY"
  | contextAgentDestroyed => "EVENT_CONTEXT_STATE_AGENT_DESTROY"
  | configure => "EVENT_CONFIGURE_CONTEXT"
  | command .start => "EVENT_AGENT_START"
  | command .stop => "EVENT_AGENT_STOP"
  | command .playStart => "EVENT_AGENT_PLAY_START"
  | command .playStop => "EVENT_AGENT_PLAY_STOP"
  | command .pause => "EVENT_AGENT_PAUSE"
  | command .resume => "EVENT_AGENT_RESUME"
  | command .appendSurface => "EVENT_AGENT_CHANNEL_APPENDSURFACE"
  | command .removeSurface => "EVENT_AGENT_CHANNEL_REMOVESURFACE"
  | destroyAgent => "EVENT_AGENT_DESTROY"
  -- peers spell this one so
  | accelerationDone => "EVENT_AGEINT_ACCELERATION_DONE"
  | prosumerState c => "EVENT_AGENT_STATE_PROSUMER_" ++ c.name
  | prosumerError => "EVENT_AGENT_PROSUMER_ERROR"
  | createChannel => "EVENT_MEDIA_CHANNEL_CREATE"
  | destroyChannel => "EVENT_MEDIA_CHANNEL_DESTROY"
  | changeMedia .sink c => "EVENT_MEDIA_CONSUMER_" ++ c.name
  | changeMedia .source c => "EVENT_MEDIA_PRODUCER_" ++ c.name
  | noticeDestroyed => "EVENT_INTERACTION_STATE_AGENT_DESTROYED"
  | noticeError => "EVENT_INTERACTION_MSG_ERROR"
  | noticeStepDone => "EVENT_INTERACTION_STATE_AGENT_STEP_DONE"
  | noticePrivate => "EVENT_INTERACTION_AGENT_PRIVATE_EVENT"

/-- The kind with a given name; case matters. -/
def ofName? (name : String) : Option EventKind := all.find? (·.name == name)

/-- The number of a kind. -/
def code : EventKind → Nat
  | createContext => 1000
  | createAgent => 1001
  | channelDestroyed => 1002
  | contextCreateAgent => 1100
  | contextDestroyAgent => 1101
  | contextAgentDestroyed => 1102
  | configure => 1200
  | command .start => 1300
  | command .stop => 1301
  | command .playStart => 1302
  | command .playStop => 1303
  | command .pause => 1304
  | command .resume => 1305
  | destroyAgent => 1306
  | command .appendSurface => 1307
  | command .removeSurface => 1308
  | accelerationDone => 1309
  | prosumerState c => 1320 + c.index
  | prosumerError => 1326
  | createChannel => 1400
  | destroyChannel => 1401
  | changeMedia .sink c => 1410 + c.index
  | changeMedia .source c => 1420 + c.index
  | noticeDestroyed => 1500
  | noticeError => 1501
  | noticeStepDone => 1502
  | noticePrivate => 1503

/-- The events that an agent still accepts once it is being destroyed. -/
def isDestroyRelated : EventKind → Bool
  | destroyAgent | contextDestroyAgent | prosumerError => true
  | prosumerState .stop | prosumerState .destroy => true
  | _ => false

/-- The run-step that an event asks an agent to take; `idle` when it asks for none. -/
def step : EventKind → RunStep
  | command c => c.step
  | destroyAgent | contextDestroyAgent => .destroy
  | _ => .idle

/-- Two kinds never share a number. -/
theorem code_injective {a b : EventKind} (h : a.code = b.code) : a = b := by
  have key : ∀ k : EventKind, all.find? (·.code == k.code) = some k := by
    intro k
    cases k with
    | command c => cases c <;> rfl
    | prosumerState c => cases c <;> rfl
    | changeMedia r c => cases r <;> cases c <;> rfl
    | _ => rfl
  have := key a
  rw [h, key b] at this
  exact (Option.some.inj this).symm

end EventKind

end CastHub
