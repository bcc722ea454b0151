import CastHub.Client.Reply
import CastHub.Client.Request
import CastHub.EventLog
import CastHub.Hub.Event
import CastHub.Service.Endpoint
/-!
# The service

A service runs a hub and the endpoints around it. Everything on its way stands in one queue: events
that are posted, events that somebody waits for to be handled, and the end of the service. Each goes
to the end of the queue and is delivered when whatever stands before it has been
(`Service.deliver`), so a request is handled after all that was queued before it
(`Service.request`).

Every event that passes through the service is pushed onto its log: requests, posts, questions to
endpoints and their answers. A service that has been shut down still logs, but handles nothing.
-/

namespace CastHub

/-- What stands in the queue of a service. -/
inductive Envelope where
  /-- An event that nobody waits for. -/
  | post (event : Event)
  /-- An event that somebody waits for to be handled. -/
  | request (event : Event)
  /-- The end of the service. -/
  | shutdown

/-- A hub, the endpoints around it, and what is on its way. -/
structure Service where
  hub : Hub
  log : EventLog := { capacity := EventLog.defaultCapacity }
  endpoints : Table Subsystem Endpoint := []
  queue : List Envelope := []
  isOpen : Bool := true
  /-- How many recorders there are. -/
  recorders : Nat := 0
  /-- What the recorders have heard, each event with the recorder's number. -/
  heard : List (Nat × Event) := []

namespace Service

/-! ## Endpoints -/

/-- The endpoint of a subsystem. -/
def endpoint? (s : Service) (target : Subsystem) : Option Endpoint := s.endpoints.get? target

/-- Makes an endpoint that of a subsystem, instead of any other. -/
def setEndpoint (s : Service) (target : Subsystem) (endpoint : Endpoint) : Service :=
  { s with endpoints := (target, endpoint) :: s.endpoints.erase target }

/-- Adds a recorder. -/
def addRecorder (s : Service) (target : Subsystem) (plan : Plan) : Service :=
  { s with recorders := s.recorders + 1 }.setEndpoint target (.recorder s.recorders plan)

/-! ## What is on its way -/

/-- Pushes an event onto the log. -/
def record (s : Service) (e : Event) : Service := { s with log := s.log.push e }

/-- Puts something at the end of the queue. After the end of the service it is lost. -/
def send (s : Service) (envelope : Envelope) : Service :=
  if s.isOpen then { s with queue := s.queue ++ [envelope] } else s

/-- Posts an event. -/
def post (s : Service) (e : Event) : Service := (s.record e).send (.post e)

/-- Sends an event to the hub, for somebody who waits for it to be handled. -/
def submit (s : Service) (e : Event) : Service := (s.record e).send (.request e)

/-- Asks the endpoint that an event is addressed to. -/
def ask (s : Service) (e : Event) : Except Fault Event × Service :=
  let s := s.record e
  match s.endpoint? e.target with
  | none => (.error .general, s)
  | some endpoint =>
    let (answer, endpoint) := endpoint.ask e
    let s := s.setEndpoint e.target endpoint
    match answer with
    | .error fault => (.error fault, s)
    | .ok reply => (.ok reply, s.record reply)

/-! ## The hub at work -/

/-- Carries out one effect. Sessions look after themselves, and there is no platform mixer. -/
def perform (s : Service) : Effect → Service
  | .post e => s.post e
  | .call _ _ => s
  | .resetAudio => s

/-- Takes over what an operation on the hub came to. -/
def adopt (s : Service) (t : HubTurn) : Service := t.effects.foldl perform { s with hub := t.hub }

/-- Asks the media channel, if an operation waits for it. -/
def awaitChannel (s : Service) (t : HubTurn) : Service × Outcome :=
  let s := s.adopt t
  match t.outcome with
  | .asking request =>
    let (answer, s) := s.ask request
    match s.hub.answered answer with
    | none => (s, t.outcome)
    | some t => (s.adopt t, t.outcome)
  | outcome => (s, outcome)

/-- Builds a session, if an operation waits for it, and then asks the media channel, if the
operation waits for that. It waits for nothing more. -/
def await (s : Service) (t : HubTurn) : Service × Outcome :=
  match t.outcome with
  | .building _ =>
    let s := s.adopt t
    match s.hub.built with
    | none => (s, t.outcome)
    | some t => s.awaitChannel t
  | _ => s.awaitChannel t

/-- Lets the hub handle an event. -/
def consult (s : Service) (e : Event) : Except Fault Event × Service :=
  match s.await (s.hub.handle e) with
  | (s, .handled result e) => (result.map fun _ => e, s)
  | (s, _) => (.error .general, s)

/-! ## The queue -/

/-- Gives an event to an endpoint. -/
def tell (s : Service) (endpoint : Endpoint) (e : Event) : Service :=
  match endpoint with
  | .loopback _ => (MediaChannel.hear e).elim s s.post
  | .logger => s
  | .recorder number _ => { s with heard := s.heard ++ [(number, e)] }

/-- Gives an event to whom it is addressed. -/
def dispatch (s : Service) (e : Event) : Service :=
  match e.target with
  | .hub | .context => (s.consult e).2
  | target => (s.endpoint? target).elim s (s.tell · e)

/-- Ends the service: whatever is still queued is lost, and no endpoint is left. -/
def close (s : Service) : Service := { s with isOpen := false, endpoints := [], queue := [] }

/-- Delivers an envelope. Whoever waits for it is told how the event was handled. -/
def deliver (s : Service) : Envelope → Option (Except Fault Event) × Service
  | .post e => (none, s.dispatch e)
  | .request e =>
    let (result, s) := s.consult e
    (some result, s)
  | .shutdown => (none, s.close)

/-- Takes the first envelope from the queue and delivers it. -/
def next (s : Service) : Option (Except Fault Event) × Service :=
  match s.queue with
  | [] => (none, s)
  | envelope :: rest => { s with queue := rest }.deliver envelope

/-- Delivers at most so many envelopes of the queue, and what they cause to be posted. -/
def drain : Nat → Service → Service
  | 0, s => s
  | count + 1, s => if s.queue.isEmpty then s else drain count s.next.2

/-- An empty queue is left alone. -/
theorem drain_of_empty {s : Service} (h : s.queue = []) (count : Nat) : s.drain count = s := by
  cases count with
  | zero => rfl
  | succ count =>
    unfold drain
    rw [h]
    rfl

theorem drain_succ (s : Service) (count : Nat) : s.drain (count + 1) = s.next.2.drain count := by
  cases h : s.queue with
  | nil =>
    have same : s.next.2 = s := by rw [next, h]
    rw [same, drain_of_empty h, drain_of_empty h]
  | cons envelope rest =>
    rw [drain, h]
    rfl

/-! ## Requests -/

/-- Sends an event to the hub and waits until it has been handled, after everything that was queued
before it. There is no answer if the service has ended by then. -/
def request (s : Service) (e : Event) : Except Fault Event × Service :=
  let (answer, s) := ((s.submit e).drain s.queue.length).next
  (answer.getD (.error .channelClosed), s)

/-- What is said about a text that is no request, if the reader that refuses it gives no reason. -/
def invalidRequest : String := "Invalid request"

/-- Answers a client's request. -/
def serveRequest (s : Service) (client : Id) (request : Request) : Reply × Service :=
  match request.toEvent client with
  | .error refusal => (.error Fault.invalidId.code refusal.message, s)
  | .ok e =>
    let (result, s) := s.request e
    (.ofResult result, s)

/-- Answers a client's request in its text form. A text that is no request is refused in the words
of the reader. -/
def serveText (s : Service) (client : Id) (text : String)
    (wording : String → String := fun _ => invalidRequest) : Reply × Service :=
  match Request.parse? text with
  | none => (.error Fault.general.code (wording text), s)
  | some request => s.serveRequest client request

/-- Ends the service after everything that is queued already, and waits until it has ended. -/
def shutdown (s : Service) : Service := (s.send .shutdown).drain (s.queue.length + 1)

end Service

end CastHub
