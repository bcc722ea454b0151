import CastHub.MediaChannel
/-!
# Endpoints

A service delivers events to the subsystems outside the hub by way of endpoints. An endpoint hears
events that nobody waits for, and is asked for answers.

Besides the loopback media channel there are two that only listen: a logger, and a recorder that
keeps what it hears and is told beforehand what to answer.
-/

namespace CastHub

/-- What a recorder does when it is asked. -/
inductive Plan where
  /-- Answers with a fault. -/
  | refuse (fault : Fault)
  /-- Answers with an event. -/
  | reply (event : Event)
  /-- Gives the request back, as if for channel one. -/
  | echo
  /-- Breaks down. -/
  | crash
  /-- Does not answer in time. -/
  | stall

namespace Plan

/-- The answer that whoever asks gets. -/
def answer (plan : Plan) (e : Event) : Except Fault Event :=
  match plan with
  | refuse fault => .error fault
  | reply event => .ok event
  | echo => .ok { e with dst := 1 }
  | crash => .error .general
  | stall => .error .syncTimeout

end Plan

/-- A subsystem outside the hub. -/
inductive Endpoint where
  | loopback (channel : MediaChannel)
  | logger
  /-- A recorder, with its number among all recorders. -/
  | recorder (number : Nat) (plan : Plan)

namespace Endpoint

/-- Asks an endpoint: its answer, and the endpoint afterwards. -/
def ask (endpoint : Endpoint) (e : Event) : Except Fault Event × Endpoint :=
  match endpoint with
  | loopback channel =>
    let (answer, channel) := channel.ask e
    (answer, loopback channel)
  | logger => (.error .unsupported, logger)
  | recorder number plan => (plan.answer e, recorder number plan)

end Endpoint

end CastHub
