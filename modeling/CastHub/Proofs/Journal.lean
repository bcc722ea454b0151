import CastHub.Hub.Event
import CastHub.Session.Loopback
/-!
# What happens to a hub

A hub is sent events, it is told how the sessions and channels that it waits for came out, and
sessions speak up of their own accord. All of this may happen in any order (`Act`): while an agent
is in the making, whoever builds its session or assigns its channel may do anything else first, so
the nested use of a hub is a sequence of acts, too.

* `Hub.perform` : what one act comes to;
* `Hub.after` : the hub after several acts;
* `Hub.journal` : what could be seen meanwhile, act by act;
* `Moment.Spares` : no live number is met again. Numbers come round, so this is a condition of
  whatever is said about who is who; a new hub meets it for a long time
  (`Hub.IsFresh.spares_of_few`).
-/

namespace CastHub

/-- Something that happens to a hub. -/
inductive Act where
  /-- The hub is sent an event. -/
  | event (event : Event)
  /-- A context is sent an event past the hub. -/
  | contextEvent (context : Id) (event : Event)
  /-- The session that is waited for has been built. -/
  | built
  /-- The media channel gives the answer that is waited for. -/
  | answered (answer : Except Fault Event)
  /-- A session has news for its agent without having been called. -/
  | news (context agent : Id) (news : SessionNews)
  /-- A session class becomes known. -/
  | register (className : String) (cls : SessionClass)
  /-- The hub starts from a configuration. -/
  | init (config : Config)
  /-- A context is released. -/
  | close (context : Id)

/-- What an act comes to; it has no outcome if it does not ask for one, or is out of place. -/
structure ActTurn where
  hub : Hub
  effects : List Effect := []
  outcome : Option Outcome := none

/-- One act, and what it came to. -/
structure Moment where
  before : Hub
  act : Act
  turn : ActTurn

/-- Takes news from its session that it did not ask for. -/
def Agent.overhear (a : Agent) (news : SessionNews) : AgentTurn :=
  let (a, msgs) := a.hear news
  { agent := a, acts := msgs.map .report }

/-- An agent in the making takes news once it has its session. Nobody listens to it yet. -/
def Creation.overhear (creation : Creation) (agent : Id) (news : SessionNews) : Creation :=
  match creation.awaited with
  | .session _ => creation
  | .channel =>
    if creation.agent.id = agent then
      { creation with agent := (creation.agent.overhear news).agent }
    else creation

/-- A turn of the hub is what an act comes to. -/
def HubTurn.done (t : HubTurn) : ActTurn :=
  { hub := t.hub, effects := t.effects, outcome := some t.outcome }

namespace Hub

/-- A session has news for its agent: one that is in its context, has left it or is in the making.
-/
def overhear (hub : Hub) (context agent : Id) (news : SessionNews) : ActTurn :=
  match hub.context? context with
  | none => { hub }
  | some c =>
    if c.agents.has agent && hub.reaches context then
      let t := c.tell agent (·.overhear news)
      { hub := hub.keep t.context, effects := t.effects }
    else if c.retired.has agent then
      let t := c.tellRetired agent (hub.reaches context) (·.overhear news)
      { hub := hub.keep t.context, effects := t.effects }
    else { hub := { hub with creations := hub.creations.map (·.overhear agent news) } }

/-- What an act comes to. -/
def perform (hub : Hub) : Act → ActTurn
  | .event e => (hub.handle e).done
  | .contextEvent context e =>
    ((hub.context? context).map fun c => (hub.deliver c e).done).getD { hub }
  | .built => (hub.built.map HubTurn.done).getD { hub }
  | .answered answer => ((hub.answered answer).map HubTurn.done).getD { hub }
  | .news context agent news => hub.overhear context agent news
  | .register className cls => { hub := { hub with classes := hub.classes.put className cls } }
  | .init config => { hub := hub.init config }
  | .close context =>
    let (hub, effects) := hub.closeContext context
    { hub, effects }

/-- The hub after several acts. -/
def after (hub : Hub) (acts : List Act) : Hub :=
  acts.foldl (fun hub act => (hub.perform act).hub) hub

/-- The moment of one act. -/
def moment (hub : Hub) (act : Act) : Moment := ⟨hub, act, hub.perform act⟩

/-- Whether a number is still that of somebody or something: of a context that can be spoken to, of
an agent in a context that is held, or of an agent in the making; or a source in the making waits
for the sink of that number. -/
def isLive (hub : Hub) (id : Id) : Bool :=
  hub.reaches id || hub.contexts.any (·.2.agents.has id) ||
    hub.creations.any fun creation =>
      creation.agent.id = id || (creation.agent.role = .source && creation.agent.sink = id)

/-- What happens act by act. -/
def journal (hub : Hub) : List Act → List Moment
  | [] => []
  | act :: rest => hub.moment act :: (hub.perform act).hub.journal rest

theorem after_append (hub : Hub) (acts more : List Act) :
    hub.after (acts ++ more) = (hub.after acts).after more := List.foldl_append ..

theorem journal_append (hub : Hub) (acts more : List Act) :
    hub.journal (acts ++ more) = hub.journal acts ++ (hub.after acts).journal more := by
  induction acts generalizing hub with
  | nil => rfl
  | cons act rest ih => exact congrArg (hub.moment act :: ·) (ih _)

/-- Each moment of a journal comes after some of the acts. -/
theorem mem_journal {hub : Hub} {acts : List Act} {m : Moment} (mem : m ∈ hub.journal acts) :
    ∃ before act rest, acts = before ++ act :: rest ∧ m = (hub.after before).moment act := by
  induction acts generalizing hub with
  | nil => cases mem
  | cons act rest ih =>
    rcases List.mem_cons.1 mem with rfl | later
    · exact ⟨[], act, rest, rfl, rfl⟩
    · obtain ⟨before, last, after, split, isIt⟩ := ih later
      exact ⟨act :: before, last, after, by rw [split]; rfl, isIt⟩

/-- A hub that has just been made: nobody is there, and nobody has been there. -/
structure IsFresh (hub : Hub) : Prop where
  contexts : hub.contexts = []
  detached : hub.detached = []
  creations : hub.creations = []

/-- Whether an agent is in a context that the hub holds. -/
def holds (hub : Hub) (context agent : Id) : Bool :=
  (hub.contexts.get? context).any (·.agents.has agent)

end Hub

/-! ## What can be seen -/

/-- The agent of which an act says that it has finished destroying, and the context that is told. -/
def Act.unmakes? : Act → Option (Id × Id)
  | .event e =>
    if e.kind = .channelDestroyed ∨ e.kind = .contextAgentDestroyed then e.agent?.map (e.dst, ·)
    else none
  | .contextEvent context e =>
    if e.kind = .contextAgentDestroyed then e.agent?.map (context, ·) else none
  | _ => none

/-- Whether a context has made an agent that it was asked for directly, past the quotas. -/
def Outcome.evadesQuota : Outcome → Bool
  | .handled (.ok _) e => e.kind = .contextCreateAgent
  | _ => false

/-- Whether an event was handled without a fault. -/
def Outcome.isOk : Outcome → Bool
  | .handled result _ => result.isOk
  | _ => false

/-- Whether an act came to an event's being handled without a fault. -/
def ActTurn.isOk (t : ActTurn) : Bool := t.outcome.any (·.isOk)

/-- The agent that is removed when a context is told that it has finished destroying: the context
has it, and nothing is wrong with that. -/
def Hub.removed? (hub : Hub) (named : Option (Id × Id)) (isOk : Bool) : Option (Id × Id) :=
  named.filter fun k => hub.holds k.1 k.2 && isOk

/-- The agent that a moment removes from its context. -/
def Moment.removal? (m : Moment) : Option (Id × Id) := m.before.removed? m.act.unmakes? m.turn.isOk

/-- Whether an act releases a context, whoever is in it. -/
def Act.releases : Act → Bool
  | .close _ => true
  | _ => false

/-- Whether an act may move the quotas. -/
def Act.setsLimits : Act → Bool
  | .event e => e.kind = .configure
  | .init _ => true
  | _ => false

/-- Whether the quotas are moved, or evaded, at a moment. -/
def Moment.passesQuota (m : Moment) : Bool :=
  m.act.setsLimits || m.turn.outcome.any (·.evadesQuota)

/-- What a client is told when it is told that an agent is gone. -/
def Effect.notice? : Effect → Option Payload
  | .post e => if e.kind = .noticeDestroyed then some e.payload else none
  | _ => none

/-- The notices among several effects. -/
def noticesAmong (effects : List Effect) : List Payload := effects.filterMap Effect.notice?

/-- Whether news is of the session's own making, for another subsystem. -/
def SessionNews.isPrivate : SessionNews → Bool
  | .privateNews _ _ _ => true
  | _ => false

/-- Whether a session gives no news of its own when it is called. -/
def Session.isDiscreet (s : Session) (c : SessionCall) : Bool :=
  (s.call c).1.news.all (!·.isPrivate)

/-- Whether an effect is no call that a session answers with news of its own. -/
def Effect.isDiscreet : Effect → Bool
  | .call s c => s.isDiscreet c
  | _ => true

/-- No session that is called gives news of its own. -/
def AllDiscreet (effects : List Effect) : Prop := ∀ effect ∈ effects, effect.isDiscreet = true

instance (effects : List Effect) : Decidable (AllDiscreet effects) :=
  inferInstanceAs (Decidable (∀ effect ∈ effects, effect.isDiscreet = true))

/-- Whether an act is news of a session's own. -/
def Act.isPrivate : Act → Bool
  | .news _ _ heard => heard.isPrivate
  | _ => false

/-- No session gives news of its own at a moment: not when it is called, and not unasked. -/
structure Moment.Discreet (m : Moment) : Prop where
  called : AllDiscreet m.turn.effects
  unasked : m.act.isPrivate = false

instance (m : Moment) : Decidable m.Discreet :=
  decidable_of_iff (AllDiscreet m.turn.effects ∧ m.act.isPrivate = false)
    ⟨fun h => ⟨h.1, h.2⟩, fun h => ⟨h.called, h.unasked⟩⟩

/-- The numbers that are handed out at a moment. No act takes more than two, for a context and for
an agent in it. -/
def Moment.minted (m : Moment) : List Id := m.before.ids.between 2 m.turn.hub.ids

/-- No live number is met again at a moment: whatever number is handed out, nobody and nothing goes
by it. -/
def Moment.Spares (m : Moment) : Prop := ∀ id ∈ m.minted, m.before.isLive id = false

-- the numbers that are handed out are looked at, and not all that there are
instance (m : Moment) : Decidable m.Spares :=
  List.decidableBAll (fun id => m.before.isLive id = false) m.minted

/-- The numbers that are handed out, in order. -/
def minted (journal : List Moment) : List Id := journal.flatMap Moment.minted

/-- The agents that are removed, in order. -/
def removals (journal : List Moment) : List (Id × Id) := journal.filterMap Moment.removal?

/-- The notices that are posted, in order. -/
def notices (journal : List Moment) : List Payload :=
  journal.flatMap fun m => noticesAmong m.turn.effects

/-! ## A sharing session -/

/-- A hub with loopback sessions, to which nothing has happened yet. -/
def Hub.loopback : Hub := { classes := Loopback.classes }

namespace Act

/-- Somebody asks for an agent with a loopback session. -/
def request (role : Role) (context sink : Id) : Act :=
  .event
    { kind := .createAgent, sender := .interaction, target := .hub, src := 1, dst := context,
      payload := .context { ContextMsg.create Loopback.className role with sink := sink } }

/-- The media channel assigns a channel. -/
def grant (channel : Id) : Act :=
  .answered (.ok
    { kind := .createChannel, sender := .mediaChannel, target := .context, dst := channel,
      payload := .empty })

/-- Somebody says something about an agent. -/
def say (kind : EventKind) (context agent : Id) : Act :=
  .event
    { kind, sender := .interaction, target := .hub, src := 1, dst := context,
      payload := .agent { agent } }

/-- In a new context a sink is made, and then a source of it. -/
def sharing : List Act :=
  [request .sink .unassigned .unassigned, built, grant 7, request .source 1 2, built]

/-- The sink is to be destroyed. Its source goes first, and then the sink itself. -/
def parting : List Act :=
  [say .destroyAgent 1 2, say .contextAgentDestroyed 1 3, say .channelDestroyed 1 2]

end Act

theorem Hub.isFresh_loopback : Hub.loopback.IsFresh := ⟨rfl, rfl, rfl⟩

end CastHub
