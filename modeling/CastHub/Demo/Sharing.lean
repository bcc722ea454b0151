import CastHub.Service.Basic
import CastHub.Session.Loopback
/-!
# A sharing session from beginning to end

One client on a service with loopback endpoints: it makes a sink and two sources, starts the sink,
destroys it, and waits until all three agents are gone.
-/

namespace CastHub

/-- How long the demonstration waits for its agents to be gone, counted in deliveries. -/
def Demo.patience : Nat := 1000000

/-- The service after so long a time. -/
def Service.settle (s : Service) : Service := s.drain Demo.patience

namespace Demo

/-- What a part of the demonstration has to show: its lines, and why it ended early, if it did. -/
structure Show where
  lines : List String := []
  failure : Option String := none

/-- The configuration that the demonstration uses by default. -/
def defaultConfig : String :=
  "\x7b\"context\": \x7b\"agentLimit\": \x7b\"maxContext\": 4, \"maxSinkAgent\": 4, "
    ++ "\"maxSrcAgent\": 8\x7d\x7d, \"network\": \x7b\"networkLimit\": \x7b\"logOn\": 1\x7d\x7d\x7d"

/-- The client's identity. -/
def client : Id := 1

/-- How many agents the demonstration waits for. -/
def expectedAgents : Nat := 3

/-- A service with loopback endpoints and loopback sessions. -/
def service (config : Config) : Service :=
  let hub := Hub.init { classes := Loopback.classes } config
  let bare : Service := { hub }
  (bare.setEndpoint .mediaChannel (.loopback {})).setEndpoint .interaction .logger

/-- How many agents the client has been told to be gone. -/
def goneAgents (log : EventLog) : Nat :=
  log.history.countP fun e => e.target = .interaction && e.kind = .noticeDestroyed

/-- Plays the sharing session. -/
def share (config : Config) : Show :=
  let s := service config
  match s.serveRequest client (.createAgent none Loopback.className .sink none) with
  | (.agentCreated context sink, s) =>
    let newSource : Request := .createAgent context Loopback.className .source sink
    let (first, s) := s.serveRequest client newSource
    let (second, s) := s.serveRequest client newSource
    let (started, s) := s.serveRequest client (.agentCommand context sink .start none false)
    let (destroyed, s) := s.serveRequest client (.destroyAgent context sink)
    let lines :=
      [s!"Sink {sink} ready in context {context}",
       "Source creation: " ++ first.describe,
       "Source creation: " ++ second.describe,
       "Start sink: " ++ started.describe,
       "Destroy sink: " ++ destroyed.describe]
    if goneAgents s.settle.log < expectedAgents then
      { lines, failure := some "timed out waiting for interaction events" }
    else { lines := lines ++ ["All agents destroyed"] }
  | (reply, _) => { failure := some ("sink creation failed: " ++ reply.describe) }

end Demo

end CastHub
