/-!
# Roles, run-steps and media changes

The small vocabulary of an agent's life.

* `Role` : an agent renders (`sink`) or produces (`source`).
* `RunStep` : where an agent stands in its life, with the weight that settles races between steps.
* `StepStatus` : how far the current step has come.
* `Command` : what a client may ask a living agent to do.
* `MediaChange` : what may happen to the media object (the *prosumer*) that an agent drives on its
  media channel.
-/

namespace CastHub

/-- The side of a sharing session that an agent stands on. -/
inductive Role where
  /-- Receives and renders; the root of its sources. -/
  | sink
  /-- Produces; always attached to one sink. -/
  | source
deriving Repr, DecidableEq

namespace Role

/-- The name of a role in events. -/
def name : Role → String
  | sink => "SINK_AGENT"
  | source => "SRC_AGENT"

/-- The role with a given name. -/
def ofName? (name : String) : Option Role := [sink, source].find? (·.name == name)

end Role

/-- Where an agent stands in its life. -/
inductive RunStep where
  | idle
  | start
  | appendSurface
  | removeSurface
  | play
  | playStop
  | stop
  | pause
  | resume
  | destroy
deriving Repr, DecidableEq

namespace RunStep

/-- Every run-step. -/
def all : List RunStep :=
  [idle, start, appendSurface, removeSurface, play, playStop, stop, pause, resume, destroy]

/-- The name of a run-step in events. -/
def name : RunStep → String
  | idle => "IDLE"
  | start => "START"
  | appendSurface => "APPEND_SURFACE"
  | removeSurface => "REMOVE_SURFACE"
  | play => "PLAY"
  | playStop => "PLAY_STOP"
  | stop => "STOP"
  | pause => "PAUSE"
  | resume => "RESUME"
  | destroy => "DESTROY"

/-- The run-step with a given name. -/
def ofName? (name : String) : Option RunStep := all.find? (·.name == name)

/-- Which of two racing steps wins: only a heavier step may replace a running one. -/
def weight : RunStep → Nat
  | idle => 0
  | appendSurface | removeSurface | play | playStop | stop | pause | resume => 1
  | start => 2
  | destroy => 3

/-- Nothing outweighs destruction. -/
theorem weight_le_destroy (s : RunStep) : s.weight ≤ destroy.weight := by cases s <;> decide

/-- Only destruction weighs as much as destruction. -/
theorem weight_eq_destroy_iff {s : RunStep} : s.weight = destroy.weight ↔ s = destroy := by
  cases s <;> decide

end RunStep

/-- How far the current run-step has come. -/
inductive StepStatus where
  | idle
  | running
  | done
  | error
  | interrupt
deriving Repr, DecidableEq

namespace StepStatus

/-- The name of a status. -/
def name : StepStatus → String
  | idle => "IDLE"
  | running => "RUNNING"
  | done => "DONE"
  | error => "ERROR"
  | interrupt => "INTERRUPT"

/-- The status with a given name. -/
def ofName? (name : String) : Option StepStatus :=
  [idle, running, done, error, interrupt].find? (·.name == name)

end StepStatus

/-- What a client may ask a living agent to do. -/
inductive Command where
  | start
  | stop
  | playStart
  | playStop
  | pause
  | resume
  | appendSurface
  | removeSurface
deriving Repr, DecidableEq

namespace Command

/-- Every command. -/
def all : List Command :=
  [start, stop, playStart, playStop, pause, resume, appendSurface, removeSurface]

/-- The name of a command in a client's request. -/
def name : Command → String
  | start => "start"
  | stop => "stop"
  | playStart => "play_start"
  | playStop => "play_stop"
  | pause => "pause"
  | resume => "resume"
  | appendSurface => "append_surface"
  | removeSurface => "remove_surface"

/-- The command with a given name. -/
def ofName? (name : String) : Option Command := all.find? (·.name == name)

/-- The run-step that a command asks for. -/
def step : Command → RunStep
  | start => .start
  | stop => .stop
  | playStart => .play
  | playStop => .playStop
  | pause => .pause
  | resume => .resume
  | appendSurface => .appendSurface
  | removeSurface => .removeSurface

/-- A command never asks an agent to do nothing, nor to die. -/
theorem step_ne (c : Command) : c.step ≠ .idle ∧ c.step ≠ .destroy := by cases c <;> decide

/-- Surface commands carry a handle that the session looks at before the step begins. -/
def isSurface : Command → Bool
  | appendSurface | removeSurface => true
  | _ => false

end Command

/-- What may happen to the media object that an agent drives. -/
inductive MediaChange where
  | create
  | start
  | stop
  | pause
  | resume
  | destroy
deriving Repr, DecidableEq

namespace MediaChange

/-- Every media change. -/
def all : List MediaChange := [create, start, stop, pause, resume, destroy]

/-- The last word of the name of an event that tells of a change. -/
def name : MediaChange → String
  | create => "CREATE"
  | start => "START"
  | stop => "STOP"
  | pause => "PAUSE"
  | resume => "RESUME"
  | destroy => "DESTROY"

/-- The name of the state that a change leads to. -/
def statusName : MediaChange → String
  | create => "CREATED"
  | start => "STARTED"
  | stop => "STOPPED"
  | pause => "PAUSED"
  | resume => "RESUMED"
  | destroy => "DESTROYED"

/-- The change that leads to the state with a given name. -/
def ofStatusName? (name : String) : Option MediaChange := all.find? (·.statusName == name)

/-- The place of a change among all of them, from zero. -/
def index : MediaChange → Nat
  | create => 0
  | start => 1
  | stop => 2
  | pause => 3
  | resume => 4
  | destroy => 5

end MediaChange

end CastHub
