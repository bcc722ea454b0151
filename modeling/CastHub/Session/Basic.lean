import CastHub.Event.Basic
import CastHub.Table
/-!
# Sessions

A session speaks the protocol of one kind of peer. The agent that owns it drives it with calls, and
while it is being called, or at any time of its own accord, the session notifies its agent.

* `SessionCall` : what an agent tells its session.
* `SessionNews` : what a session tells its agent.
* `SessionClass` : how the sessions of a class react. The reaction to a call may depend on every
  call received before, so any deterministic session is an instance.
* `Session.call` : one call, and the session afterwards.
-/

namespace CastHub

/-- What an agent tells its session. -/
inductive SessionCall where
  /-- Enter a run-step. -/
  | operate (step : RunStep)
  /-- The media channel has carried a change out. -/
  | media (change : MediaChange)
  /-- An event for the session itself. -/
  | privateEvent (event : Event)

/-- What a session tells its agent. -/
inductive SessionNews where
  /-- Asks for a change of the agent's media object. -/
  | prosumer (change : MediaChange)
  | started
  | stopped
  | paused
  | resumed
  | destroyed
  | interrupted
  /-- The current step has ended, and no other news says so. -/
  | stepDone (step : RunStep)
  | error (fault : Fault)
  /-- News of the session's own for another subsystem. -/
  | privateNews (target : Subsystem) (kind : EventKind) (detail : Option String)
deriving Repr, DecidableEq

/-- What a session does when it is called: the news it gives, in order, and how the call ends. Only
the end of a private event is looked at. -/
structure SessionReaction where
  news : List SessionNews := []
  result : Except Fault Unit := .ok ()

/-- A class of sessions. -/
structure SessionClass where
  /-- Whether the sessions of this class are numbered, in order of creation, and their calls made
  known. -/
  isRecorded : Bool
  /-- Whether sessions look at private events. Those that do not refuse them unseen. -/
  takesPrivate : Bool
  /-- The reaction to a call, given all earlier calls, the latest first. -/
  react : List SessionCall → SessionCall → SessionReaction

/-- A session: its class, its number if it is recorded, and the calls it has received, the latest
first. -/
structure Session where
  cls : SessionClass
  number : Option Nat
  past : List SessionCall := []

namespace Session

/-- Calls a session: its reaction, and the session afterwards. -/
def call (s : Session) (c : SessionCall) : SessionReaction × Session :=
  (s.cls.react s.past c, { s with past := c :: s.past })

/-- Whether a call reaches the session itself. -/
def accepts (s : Session) : SessionCall → Bool
  | .privateEvent _ => s.cls.takesPrivate
  | _ => true

end Session

/-- The session classes that are known, by name. -/
abbrev SessionClasses := Table String SessionClass

end CastHub
