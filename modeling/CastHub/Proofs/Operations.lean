import CastHub.Hub.Event
import CastHub.Proofs.Numbering
/-!
# What the operations of a hub come to

Each function of the hub, taken apart once: what it may come to, and when. Whatever is said about
all operations of a hub is said case by case of these, so nothing else depends on how the functions
are written down.

* `openContext_eq_ok`, `contextFor_eq_ok` : the context that an agent is made in;
* `mem_between_of_opened` : the number of a context that is opened is among those that are handed
  out;
* `begin_cases`, `built_cases`, `answered_cases`, `enlist_cases`, `conclude_cases` : the stages in
  which an agent is made;
* `conclude_request_ok`, `hub_conclude_ok` : the end of a creation that has succeeded;
* `createAgent_cases`, `channelDestroyed_cases`, `deliver_cases`, `handle_cases` : events;
* `createAgent_of_met` : a request for an agent that is not refused;
* `handle_of_configure`, `handle_of_createContext`, `handle_of_channelDestroyed` : events of the
  hub's own;
* `handle_of_held`, `handle_of_missing` : events that a context sees to.
-/

namespace CastHub

namespace Hub

variable {hub : Hub}

/-! ## Contexts -/

/-- A new context has the next identity, and there was room for it. -/
theorem openContext_eq_ok {hub' : Hub} {c : Context} (opened : hub.openContext = .ok (c, hub')) :
    hub.contexts.length < hub.limits.contexts ∧
      ∃ id ids, hub.ids.mint = (id, ids) ∧ c = { id } ∧
        hub' = { hub with ids, contexts := hub.contexts.put id { id } } := by
  unfold openContext at opened
  split at opened
  · cases opened
  · rename_i room
    obtain ⟨rfl, rfl⟩ := Prod.mk.inj (Except.ok.inj opened)
    exact ⟨Nat.lt_of_not_le room, _, _, rfl, rfl, rfl⟩

/-- An agent is made in a new context, or in one that the hub holds. -/
theorem contextFor_eq_ok {hub' : Hub} {dst : Id} {c : Context} {fresh : Bool}
    (found : hub.contextFor dst = .ok (c, fresh, hub')) :
    (fresh = true ∧ hub.openContext = .ok (c, hub')) ∨
      (fresh = false ∧ hub.contexts.get? dst = some c ∧ hub' = hub) := by
  unfold contextFor at found
  split at found
  · cases opened : hub.openContext with
    | error fault =>
      rw [opened] at found
      cases found
    | ok new =>
      rw [opened] at found
      obtain ⟨rfl, rfl, rfl⟩ := Except.ok.inj found
      exact .inl ⟨rfl, rfl⟩
  · split at found
    · cases found
    · rename_i held
      obtain ⟨rfl, rfl, rfl⟩ := Except.ok.inj found
      exact .inr ⟨rfl, held, rfl⟩

/-- A context is closed only if it is held and nobody is in it. -/
theorem closeIfEmpty_cases (hub : Hub) (x : Id) : hub.closeIfEmpty x = (hub, []) ∨
    ∃ c, hub.contexts.get? x = some c ∧ c.isEmpty = true ∧
      hub.closeIfEmpty x = hub.closeContext x := by
  unfold closeIfEmpty
  split
  · rename_i empty
    obtain ⟨c, held, isEmpty⟩ := (Option.any_eq_true _ _).1 empty
    exact .inr ⟨c, held, isEmpty, rfl⟩
  · exact .inl rfl

/-! ## Stages of a creation -/

/-- Whoever asked for an agent is told how it went; a context that was opened for nothing is
closed. -/
theorem conclude_cases (hub : Hub) (x : Id) (origin : Origin) (result : Except Fault Id) :
    ∃ outcome, (outcome = .created result ∨ ∃ e, outcome = .handled (result.map fun _ => ()) e) ∧
      (hub.conclude x origin result = { hub, outcome } ∨
        ((hub.context? x).all (·.isEmpty) = true ∧ hub.conclude x origin result
          = { hub := (hub.closeContext x).1, effects := (hub.closeContext x).2, outcome })) := by
  cases origin with
  | direct => exact ⟨_, .inl rfl, .inl rfl⟩
  | event e => exact ⟨_, .inr ⟨_, rfl⟩, .inl rfl⟩
  | request e fresh =>
    unfold conclude
    simp only
    split
    · rename_i unwanted
      exact ⟨_, .inr ⟨_, rfl⟩, .inr ⟨(Bool.and_eq_true_iff.1 unwanted).2, rfl⟩⟩
    · exact ⟨_, .inr ⟨_, rfl⟩, .inl rfl⟩

/-- A request that is met is given back with both identities written into it. -/
theorem conclude_request_ok (hub : Hub) (x : Id) (e : Event) (fresh : Bool) (id : Id) :
    hub.conclude x (.request e fresh) (.ok id)
      = { hub, outcome := .handled (.ok ())
            { e with payload := e.payload.withContextAgent id, dst := x } } := by
  have kept : (fresh && !(Except.ok id : Except Fault Id).isOk) = false := by cases fresh <;> rfl
  unfold conclude
  simp only [kept, Bool.false_and]
  rfl

/-- No context is closed when an agent has been made. -/
theorem hub_conclude_ok (hub : Hub) (x : Id) (origin : Origin) (id : Id) :
    (hub.conclude x origin (.ok id)).hub = hub := by
  cases origin with
  | direct => rfl
  | event e => rfl
  | request e fresh => rw [conclude_request_ok]

/-- What comes of beginning to make an agent. -/
inductive BeginCases (hub : Hub) (c : Context) (msg : ContextMsg) (origin : Origin) (t : HubTurn) :
    Prop
  /-- Nothing, and perhaps an identity has been used up. -/
  | fails (ids : IdSource) (fault : Fault)
      (comes : t = ({ hub with ids } : Hub).conclude c.id origin (.error fault))
      (used : ids = hub.ids ∨ ids = hub.ids.mint.2)
  /-- Its session is to be built. -/
  | waits (blank : Id → Agent) (id : Id) (ids : IdSource) (session : Session) (sessions : Nat)
      (new : c.blankAgent msg = .ok blank) (minted : hub.ids.mint = (id, ids))
      (known : hub.classes.get? msg.className = some session.cls)
      (comes : t =
        { hub :=
            { hub with
              ids, sessions
              creations := ⟨c.id, blank id, .session session, origin⟩ :: hub.creations }
          outcome := .building msg.className })

/-- A new session is one of the class that was asked for. -/
theorem newSession?_eq_some {hub' : Hub} {className : String} {session : Session}
    (made : hub.newSession? className = some (session, hub')) :
    hub.classes.get? className = some session.cls ∧ ∃ sessions, hub' = { hub with sessions } := by
  unfold newSession? at made
  obtain ⟨cls, known, made⟩ := Option.map_eq_some_iff.1 made
  split at made
  · obtain ⟨rfl, rfl⟩ := Prod.mk.inj made
    exact ⟨known, _, rfl⟩
  · obtain ⟨rfl, rfl⟩ := Prod.mk.inj made
    exact ⟨known, hub.sessions, rfl⟩

theorem begin_cases (hub : Hub) (c : Context) (msg : ContextMsg) (origin : Origin) :
    hub.BeginCases c msg origin (hub.begin c msg origin) := by
  unfold begin
  split
  · exact .fails hub.ids _ rfl (.inl rfl)
  · rename_i blank new
    simp only
    split
    · exact .fails hub.ids.mint.2 _ rfl (.inr rfl)
    · rename_i session hub' made
      obtain ⟨known, sessions, rfl⟩ := newSession?_eq_some made
      exact .waits blank _ _ session sessions new rfl known rfl

/-! ## Numbers -/

theorem ids_keep (hub : Hub) (c : Context) : (hub.keep c).ids = hub.ids := by
  unfold keep
  split <;> rfl

theorem ids_closeContext (hub : Hub) (x : Id) : (hub.closeContext x).1.ids = hub.ids := by
  unfold closeContext
  split <;> rfl

theorem ids_conclude (hub : Hub) (x : Id) (origin : Origin) (result : Except Fault Id) :
    (hub.conclude x origin result).hub.ids = hub.ids := by
  obtain ⟨outcome, _, same | ⟨_, closes⟩⟩ := hub.conclude_cases x origin result
  · rw [same]
  · rw [closes]
    exact hub.ids_closeContext x

/-- Beginning to make an agent takes at most one number. -/
theorem draws_begin (hub : Hub) (c : Context) (msg : ContextMsg) (origin : Origin) :
    ∃ ids, hub.ids.Draws ids (hub.begin c msg origin).hub.ids ∧ ids.length ≤ 1 := by
  cases hub.begin_cases c msg origin with
  | fails ids fault comes used =>
    rw [comes, ids_conclude]
    rcases used with rfl | rfl
    · exact ⟨[], IdSource.draws_nil _, Nat.zero_le _⟩
    · exact ⟨[hub.ids.mint.1], IdSource.draws_mint rfl, Nat.le_refl _⟩
  | waits blank id ids session sessions new minted known comes =>
    rw [comes]
    exact ⟨[id], IdSource.draws_mint minted, Nat.le_refl _⟩

/-- The number of a context that is opened is among those that are handed out, whatever agent may
begin to be made in it. -/
theorem mem_between_of_opened {hub' : Hub} {c : Context} (opened : hub.openContext = .ok (c, hub'))
    {ids : List Id} {later : IdSource} (draws : hub'.ids.Draws ids later) (few : ids.length ≤ 1) :
    c.id ∈ hub.ids.between 2 later := by
  obtain ⟨_, id, rest, minted, rfl, rfl⟩ := openContext_eq_ok opened
  have all := (IdSource.draws_mint minted).append draws
  rw [all.between (Nat.succ_le_succ few) (by decide)]
  exact List.mem_cons_self ..

/-! ## The end of a creation -/

/-- What becomes of an agent that is ready. -/
inductive EnlistCases (hub : Hub) (x : Id) (a : Agent) (origin : Origin) (t : HubTurn) : Prop
  /-- Its context cannot have it. -/
  | fails (fault : Fault) (comes : t = hub.conclude x origin (.error fault))
  | joins (c c' : Context) (there : hub.context? x = some c) (published : c.publish a = .ok c')
      (comes : t = (hub.keep c').conclude x origin (.ok a.id))

theorem enlist_cases (hub : Hub) (x : Id) (a : Agent) (origin : Origin) :
    hub.EnlistCases x a origin (hub.enlist x a origin) := by
  unfold enlist
  split
  · exact .fails _ rfl
  · rename_i c there
    split
    · exact .fails _ rfl
    · rename_i c' published
      exact .joins c c' there published rfl

/-- What comes of a session's having been built. -/
inductive BuiltCases (hub : Hub) (t : HubTurn) : Prop
  /-- A source is ready. -/
  | joins (x : Id) (a : Agent) (session : Session) (origin : Origin) (rest : List Creation)
      (latest : hub.creations = ⟨x, a, .session session, origin⟩ :: rest) (source : a.role = .source)
      (comes : t = ({ hub with creations := rest } : Hub).enlist x { a with session := some session }
        origin)
  /-- A sink waits for its channel. -/
  | waits (x : Id) (a : Agent) (session : Session) (origin : Origin) (rest : List Creation)
      (latest : hub.creations = ⟨x, a, .session session, origin⟩ :: rest) (isSink : a.role = .sink)
      (comes : t =
        { hub :=
            { hub with
              creations := ⟨x, { a with session := some session }, .channel, origin⟩ :: rest }
          outcome := .asking (Context.channelRequest x a.id) })

theorem built_cases {t : HubTurn} (built : hub.built = some t) : hub.BuiltCases t := by
  unfold Hub.built at built
  split at built
  · rename_i x a session origin rest latest
    simp only at built
    split at built
    · rename_i source
      exact .joins x a session origin rest latest source (Option.some.inj built).symm
    · rename_i isSink
      exact .waits x a session origin rest latest isSink (Option.some.inj built).symm
  · cases built

/-- What comes of the media channel's having answered. -/
inductive AnsweredCases (hub : Hub) (answer : Except Fault Event) (t : HubTurn) : Prop
  | fails (x : Id) (a : Agent) (origin : Origin) (rest : List Creation) (fault : Fault)
      (latest : hub.creations = ⟨x, a, .channel, origin⟩ :: rest)
      (comes : t = ({ hub with creations := rest } : Hub).conclude x origin (.error fault))
  | joins (x : Id) (a : Agent) (origin : Origin) (rest : List Creation) (channel : Id)
      (latest : hub.creations = ⟨x, a, .channel, origin⟩ :: rest)
      (assigned : Context.channelOf answer = .ok channel)
      (comes : t = ({ hub with creations := rest } : Hub).enlist x { a with channel } origin)

theorem answered_cases {answer : Except Fault Event} {t : HubTurn}
    (answered : hub.answered answer = some t) : hub.AnsweredCases answer t := by
  unfold Hub.answered at answered
  split at answered
  · rename_i x a origin rest latest
    simp only at answered
    split at answered
    · exact .fails x a origin rest _ latest (Option.some.inj answered).symm
    · rename_i channel assigned
      exact .joins x a origin rest channel latest assigned (Option.some.inj answered).symm
  · cases answered

/-! ## Events -/

/-- What comes of a request for an agent. -/
inductive CreateAgentCases (hub : Hub) (e : Event) (t : HubTurn) : Prop
  | refused (fault : Fault) (comes : t = { hub, outcome := .handled (.error fault) e })
  /-- The context takes no event in. -/
  | shut (c : Context) (fresh : Bool) (hub' : Hub) (fault : Fault)
      (found : hub.contextFor e.dst = .ok (c, fresh, hub'))
      (comes : t = { hub := hub', outcome := .handled (.error fault) { e with dst := c.id } })
  | begins (msg : ContextMsg) (c c' : Context) (fresh : Bool) (hub' : Hub)
      (asked : e.payload.contextMsg? = some msg) (room : hub.hasRoom msg.role = true)
      (found : hub.contextFor e.dst = .ok (c, fresh, hub')) (received : c.receive e = .ok c')
      (comes : t = (hub'.keep c').begin c' msg (.request e fresh))

theorem createAgent_cases (hub : Hub) (e : Event) : hub.CreateAgentCases e (hub.createAgent e) := by
  unfold createAgent
  split
  · exact .refused _ rfl
  · rename_i msg asked
    split
    · exact .refused _ rfl
    · rename_i room
      split
      · exact .refused _ rfl
      · rename_i c fresh hub' found
        split
        · exact .shut c fresh hub' _ found rfl
        · rename_i c' received
          have fits : hub.hasRoom msg.role = true := by simpa using room
          exact .begins msg c c' fresh hub' asked fits found received rfl

/-- A request that finds room, and a context that takes it in, begins to be met. -/
theorem createAgent_of_met {e : Event} {msg : ContextMsg} {c c' : Context} {fresh : Bool}
    {hub' : Hub} (asked : e.payload.contextMsg? = some msg) (room : hub.hasRoom msg.role = true)
    (found : hub.contextFor e.dst = .ok (c, fresh, hub')) (received : c.receive e = .ok c') :
    hub.createAgent e = (hub'.keep c').begin c' msg (.request e fresh) := by
  have admitted : (!hub.hasRoom msg.role) = false := by rw [room]; rfl
  simp only [createAgent, asked, admitted, found, received]
  rfl

/-- What comes of handing an event to a context. -/
inductive DeliverCases (hub : Hub) (c : Context) (e : Event) (t : HubTurn) : Prop
  | refused (fault : Fault) (refuses : c.receive e = .error fault)
      (comes : t = { hub, outcome := .handled (.error fault) e })
  /-- It is asked for an agent, but not told which. -/
  | unclear (c' : Context) (received : c.receive e = .ok c') (asks : e.kind = .contextCreateAgent)
      (comes : t = { hub := hub.keep c', outcome := .handled (.error .general) e })
  | begins (c' : Context) (msg : ContextMsg) (received : c.receive e = .ok c')
      (asks : e.kind = .contextCreateAgent) (asked : e.payload.contextMsg? = some msg)
      (comes : t = (hub.keep c').begin c' msg (.event e))
  | carries (c' : Context) (received : c.receive e = .ok c') (other : e.kind ≠ .contextCreateAgent)
      (comes : t =
        { hub := hub.keep (c'.carryOut e).context
          effects := (c'.carryOut e).effects
          outcome := .handled (c'.carryOut e).result e })

theorem deliver_cases (hub : Hub) (c : Context) (e : Event) :
    hub.DeliverCases c e (hub.deliver c e) := by
  unfold deliver
  split
  · rename_i fault refuses
    exact .refused fault refuses rfl
  · rename_i c' received
    split
    · rename_i asks
      simp only
      split
      · exact .unclear c' received asks rfl
      · rename_i msg asked
        exact .begins c' msg received asks asked rfl
    · rename_i other
      exact .carries c' received other rfl

/-- What comes of the end of a media channel. -/
inductive ChannelDestroyedCases (hub : Hub) (e : Event) (t : HubTurn) : Prop
  | dropped (missing : hub.contexts.get? e.dst = none)
      (comes : t = { hub, outcome := .handled (.ok ()) e })
  | refused (c : Context) (fault : Fault) (held : hub.contexts.get? e.dst = some c)
      (refuses : c.receive e = .error fault)
      (comes : t =
        { hub := (hub.closeIfEmpty c.id).1
          effects := (hub.closeIfEmpty c.id).2
          outcome := .handled (.error fault) e })
  | ends (c c' : Context) (held : hub.contexts.get? e.dst = some c)
      (received : c.receive e = .ok c')
      (comes : t =
        { hub := ((hub.keep (c'.agentDestroyed e).context).closeIfEmpty c'.id).1
          effects := (c'.agentDestroyed e).effects ++
            ((hub.keep (c'.agentDestroyed e).context).closeIfEmpty c'.id).2
          outcome := .handled (c'.agentDestroyed e).result e })

theorem channelDestroyed_cases (hub : Hub) (e : Event) :
    hub.ChannelDestroyedCases e (hub.channelDestroyed e) := by
  unfold channelDestroyed
  split
  · rename_i missing
    exact .dropped missing rfl
  · rename_i c held
    split
    · rename_i fault refuses
      exact .refused c fault held refuses rfl
    · rename_i c' received
      exact .ends c c' held received rfl

/-- What comes of an event. -/
inductive HandleCases (hub : Hub) (e : Event) (t : HubTurn) : Prop
  | configures (kind : e.kind = .configure)
      (comes : t = { hub := hub.configure e.payload, outcome := .handled (.ok ()) e })
  | full (fault : Fault) (kind : e.kind = .createContext)
      (comes : t = { hub, outcome := .handled (.error fault) e })
  | opens (c : Context) (hub' : Hub) (kind : e.kind = .createContext)
      (opened : hub.openContext = .ok (c, hub'))
      (comes : t = { hub := hub', outcome := .handled (.ok ()) { e with dst := c.id } })
  | creates (kind : e.kind = .createAgent) (comes : t = hub.createAgent e)
  | ends (kind : e.kind = .channelDestroyed) (comes : t = hub.channelDestroyed e)
  /-- It is addressed to a context that the hub does not hold. -/
  | dropped (notAgent : e.kind ≠ .createAgent) (notChannel : e.kind ≠ .channelDestroyed)
      (missing : hub.contexts.get? e.dst = none)
      (comes : t = { hub, outcome := .handled (.ok ()) e })
  | delivers (c : Context) (notAgent : e.kind ≠ .createAgent)
      (notChannel : e.kind ≠ .channelDestroyed) (held : hub.contexts.get? e.dst = some c)
      (comes : t = hub.deliver c e)

theorem handle_cases (hub : Hub) (e : Event) : hub.HandleCases e (hub.handle e) := by
  unfold handle
  split
  · exact .configures ‹_› rfl
  · rename_i kind
    split
    · exact .full _ kind rfl
    · rename_i c hub' opened
      exact .opens c hub' kind opened rfl
  · exact .creates ‹_› rfl
  · exact .ends ‹_› rfl
  · rename_i notAgent notChannel
    unfold forward
    split
    · rename_i missing
      exact .dropped notAgent notChannel missing rfl
    · rename_i c held
      exact .delivers c notAgent notChannel held rfl

/-! ## Events of the hub's own -/

/-- Numbers are handed out only where a context or an agent is asked for. -/
theorem ids_handle {e : Event} (notAgent : e.kind ≠ .createAgent)
    (notContext : e.kind ≠ .createContext) (notOwn : e.kind ≠ .contextCreateAgent) :
    (hub.handle e).hub.ids = hub.ids := by
  cases hub.handle_cases e with
  | configures kind comes =>
    rw [comes]
    show (hub.configure e.payload).ids = hub.ids
    unfold Hub.configure
    split
    · split <;> rfl
    · rfl
  | full fault kind comes => rw [comes]
  | opens c hub' kind opened comes => exact absurd kind notContext
  | creates kind comes => exact absurd kind notAgent
  | dropped _ notChannel missing comes => rw [comes]
  | ends kind comes =>
    have closes : ∀ (hub : Hub) (x : Id), (hub.closeIfEmpty x).1.ids = hub.ids := by
      intro hub x
      unfold Hub.closeIfEmpty
      split
      · exact hub.ids_closeContext x
      · rfl
    rw [comes]
    cases hub.channelDestroyed_cases e with
    | dropped missing comes => rw [comes]
    | refused c fault held refuses comes =>
      rw [comes]
      exact closes hub c.id
    | ends c c' held received comes =>
      rw [comes]
      exact (closes _ _).trans (hub.ids_keep _)
  | delivers c _ notChannel held comes =>
    rw [comes]
    cases hub.deliver_cases c e with
    | refused fault refuses comes => rw [comes]
    | unclear c' received asks comes => exact absurd asks notOwn
    | begins c' msg received asks asked comes => exact absurd asks notOwn
    | carries c' received other comes =>
      rw [comes]
      exact hub.ids_keep _

theorem handle_of_configure (hub : Hub) {e : Event} (kind : e.kind = .configure) :
    hub.handle e = { hub := hub.configure e.payload, outcome := .handled (.ok ()) e } := by
  unfold handle
  rw [kind]

theorem handle_of_createContext (hub : Hub) {e : Event} (kind : e.kind = .createContext) :
    (∃ fault, hub.handle e = { hub, outcome := .handled (.error fault) e }) ∨
      ∃ c hub', hub.openContext = .ok (c, hub') ∧
        hub.handle e = { hub := hub', outcome := .handled (.ok ()) { e with dst := c.id } } := by
  unfold handle
  rw [kind]
  simp only
  cases opened : hub.openContext with
  | error fault => exact .inl ⟨fault, rfl⟩
  | ok new => exact .inr ⟨new.1, new.2, rfl, rfl⟩

theorem handle_of_channelDestroyed (hub : Hub) {e : Event} (kind : e.kind = .channelDestroyed) :
    hub.handle e = hub.channelDestroyed e := by
  unfold handle
  rw [kind]

/-! ## Events that a context sees to -/

/-- Whether an event of a kind is seen to by the context that it is addressed to: it is not the
hub's own, and asks for no agent. -/
def isForContext : EventKind → Bool
  | .configure | .createContext | .createAgent | .channelDestroyed | .contextCreateAgent => false
  | _ => true

/-- Of what a hub may make of an event that a context sees to, two things are left. -/
theorem passes_on (hub : Hub) {e : Event} (passes : isForContext e.kind = true) :
    (hub.contexts.get? e.dst = none ∧ hub.handle e = { hub, outcome := .handled (.ok ()) e }) ∨
      ∃ c, hub.contexts.get? e.dst = some c ∧ hub.handle e = hub.deliver c e := by
  cases hub.handle_cases e with
  | dropped notAgent notChannel missing comes => exact .inl ⟨missing, comes⟩
  | delivers c notAgent notChannel held comes => exact .inr ⟨c, held, comes⟩
  | configures kind => rw [kind] at passes; cases passes
  | full fault kind => rw [kind] at passes; cases passes
  | opens c hub' kind => rw [kind] at passes; cases passes
  | creates kind => rw [kind] at passes; cases passes
  | ends kind => rw [kind] at passes; cases passes

theorem handle_of_missing {e : Event} (passes : isForContext e.kind = true)
    (missing : hub.contexts.get? e.dst = none) :
    hub.handle e = { hub, outcome := .handled (.ok ()) e } := by
  rcases hub.passes_on passes with ⟨_, comes⟩ | ⟨c, held, _⟩
  · exact comes
  · rw [missing] at held
    cases held

theorem handle_of_passed_on {e : Event} (passes : isForContext e.kind = true) {c : Context}
    (held : hub.contexts.get? e.dst = some c) : hub.handle e = hub.deliver c e := by
  rcases hub.passes_on passes with ⟨missing, _⟩ | ⟨d, isHeld, comes⟩
  · rw [held] at missing
    cases missing
  · rw [held] at isHeld
    cases isHeld
    exact comes

theorem handle_of_held {e : Event} (passes : isForContext e.kind = true) {c c' : Context}
    (held : hub.contexts.get? e.dst = some c) (received : c.receive e = .ok c') :
    hub.handle e =
      { hub := hub.keep (c'.carryOut e).context
        effects := (c'.carryOut e).effects
        outcome := .handled (c'.carryOut e).result e } := by
  rw [handle_of_passed_on passes held]
  cases hub.deliver_cases c e with
  | refused fault refuses =>
    rw [received] at refuses
    cases refuses
  | unclear d' _ asks =>
    rw [asks] at passes
    cases passes
  | begins d' msg _ asks =>
    rw [asks] at passes
    cases passes
  | carries d' isReceived _ delivered =>
    rw [received] at isReceived
    cases isReceived
    exact delivered

end Hub

end CastHub
