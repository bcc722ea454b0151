import CastHub.Session.Basic
/-!
# Loopback sessions

For hosts without a real peer: a session that ends every run-step as soon as it is asked to enter
it.
-/

namespace CastHub

namespace Loopback

/-- The news with which a loopback session ends a step. -/
def newsFor : RunStep → List SessionNews
  | .idle => []
  | .start => [.prosumer .create, .started]
  | .play => [.prosumer .start, .stepDone .play]
  | .playStop | .stop => [.prosumer .stop, .stopped]
  | .pause => [.prosumer .pause, .paused]
  | .resume => [.prosumer .resume, .resumed]
  | .appendSurface => [.stepDone .appendSurface]
  | .removeSurface => [.stepDone .removeSurface]
  | .destroy => [.destroyed]

/-- The class of loopback sessions. They take note of media changes and private events in
silence. -/
def sessionClass : SessionClass where
  isRecorded := false
  takesPrivate := true
  react _ call :=
    match call with
    | .operate step => { news := newsFor step }
    | _ => {}

/-- The name under which the class is known. -/
def className : String := "LoopbackSession"

/-- The known classes of a host that has loopback sessions only. -/
def classes : SessionClasses := [(className, sessionClass)]

end Loopback

/-- Sessions that follow a script: fixed news for every run-step, and the same news for every media
change. `onPrivate` says how private events end; without it they are refused unseen. -/
structure SessionScript where
  onStep : RunStep → List SessionNews
  onMedia : List SessionNews := []
  onPrivate : Option (Except Fault Unit) := none

/-- The class of sessions that follow a script. -/
def SessionScript.sessionClass (script : SessionScript) : SessionClass where
  isRecorded := true
  takesPrivate := script.onPrivate.isSome
  react _ call :=
    match call with
    | .operate step => { news := script.onStep step }
    | .media _ => { news := script.onMedia }
    | .privateEvent _ => { result := script.onPrivate.getD (.error .unsupported) }

end CastHub
