import CastHub.Proofs.Isolation
/-!
# Agents are made altogether, or not at all

A request for an agent has many ways to fail, at different depths: the context may have been opened
for it, an identity may have been used up, a session may have been built. Whichever it is, what has
been done so far is undone; and if the request is met, then one agent has joined one context and
nothing else has changed (`Hub.creation_is_all_or_nothing`). This takes that the numbers that are
handed out to the context and to the agent are not met again: whoever went by them would be lost.

The request is seen through to its end here, with nobody else doing anything meanwhile
(`Hub.attend`).

* `Hub.makes_cases` : the stages of a creation as one operation, with one way to fail and one way to
  succeed;
* `Hub.Unwinds`, `Hub.Admits` : what is left of a request that failed, and what comes of one that is
  met.
-/

namespace CastHub

namespace HubTurn

variable {t u : HubTurn} {answer : Event → Except Fault Event}

/-! ## Seeing an operation through -/

theorem withAnswer_of_done (done : t.outcome.waits = false) : t.withAnswer answer = t := by
  unfold withAnswer
  split
  · rename_i request asks
    rw [asks] at done
    cases done
  · rfl

/-- An operation that waits for nobody is at its end. -/
theorem seenThrough_of_done (done : t.outcome.waits = false) : t.seenThrough answer = t := by
  unfold seenThrough
  split
  · rename_i className builds
    rw [builds] at done
    cases done
  · exact withAnswer_of_done done

/-- Nothing has been said before somebody else goes on. -/
theorem goesOn_of_silent (silent : t.effects = []) : t.goesOn (some u) = u := by
  unfold goesOn
  rw [silent]
  rfl

theorem withAnswer_of_asking {request : Event} (asks : t.outcome = .asking request)
    (silent : t.effects = []) (answered : t.hub.answered (answer request) = some u) :
    t.withAnswer answer = u := by
  unfold withAnswer
  rw [asks]
  simp only [answered, goesOn_of_silent silent]

theorem seenThrough_of_building {className : String} (builds : t.outcome = .building className)
    (silent : t.effects = []) (built : t.hub.built = some u) :
    t.seenThrough answer = u.withAnswer answer := by
  unfold seenThrough
  rw [builds]
  simp only [built, goesOn_of_silent silent]

end HubTurn

namespace Hub

variable {hub : Hub} {c : Context} {msg : ContextMsg} {answer : Event → Except Fault Event}

/-! ## A creation from beginning to end -/

/-- An agent that has been made for a context as it was asked for, if `answer` is what the media
channel has to say: it is idle and has a session of the class that was named; a sink is on the
channel that the media channel has assigned, and a source on that of its living sink. -/
structure Makes (hub : Hub) (c : Context) (answer : Event → Except Fault Event) (msg : ContextMsg)
    (a : Agent) : Prop where
  role : a.role = msg.role
  idle : a.step = .idle ∧ a.status = .idle
  alive : a.destroying = false
  manned : ∃ s, a.session = some s ∧ hub.classes.get? msg.className = some s.cls
  ofSink : a.role = .sink → a.sink = .unassigned ∧
    Context.channelOf (answer (Context.channelRequest c.id a.id)) = .ok a.channel
  ofSource : a.role = .source →
    ∃ s, c.liveSink msg.sink = .ok s ∧ a.sink = s.id ∧ a.channel = s.channel

/-- What comes of making an agent: nothing, and perhaps some numbers have been used up, or the agent
is in its context. -/
inductive MakesCases (hub : Hub) (c : Context) (answer : Event → Except Fault Event)
    (msg : ContextMsg) (origin : Origin) (t : HubTurn) : Prop
  | fails (ids : IdSource) (sessions : Nat) (fault : Fault)
      (comes : t = ({ hub with ids, sessions } : Hub).conclude c.id origin (.error fault))
  | joins (a : Agent) (ids : IdSource) (sessions : Nat) (minted : hub.ids.mint = (a.id, ids))
      (begun : (hub.begin c msg origin).hub.ids = ids) (makes : hub.Makes c answer msg a)
      (comes : t = (({ hub with ids, sessions } : Hub).keep
        { c with agents := c.agents.put a.id a }).conclude c.id origin (.ok a.id))

theorem done_enlist (hub : Hub) (x : Id) (a : Agent) (origin : Origin) :
    (hub.enlist x a origin).outcome.waits = false := by
  cases hub.enlist_cases x a origin with
  | fails fault comes =>
    rw [comes]
    exact done_conclude ..
  | joins c c' there published comes =>
    rw [comes]
    exact done_conclude ..

/-- The agent is ready, and its context is still there. -/
theorem makesCases_enlist (there : hub.context? c.id = some c) {a : Agent} {ids : IdSource}
    {sessions : Nat} (minted : hub.ids.mint = (a.id, ids)) (makes : hub.Makes c answer msg a)
    {origin : Origin} (begun : (hub.begin c msg origin).hub.ids = ids) :
    hub.MakesCases c answer msg origin
      (({ hub with ids, sessions } : Hub).enlist c.id a origin) := by
  cases ({ hub with ids, sessions } : Hub).enlist_cases c.id a origin with
  | fails fault comes => exact .fails ids sessions fault comes
  | joins d d' isThere published comes =>
    obtain rfl : c = d := Option.some.inj (there.symm.trans isThere)
    obtain ⟨rfl, _⟩ := Context.publish_eq_ok published
    exact .joins a ids sessions minted begun makes comes

/-- A new agent is what it was asked to be, but for its session and a sink's channel. -/
theorem blankAgent_makes {blank : Id → Agent} (new : c.blankAgent msg = .ok blank) (id : Id) :
    (blank id).id = id ∧ (blank id).role = msg.role ∧ (blank id).step = .idle ∧
    (blank id).status = .idle ∧ (blank id).destroying = false ∧
    ((blank id).role = .sink → (blank id).sink = .unassigned) ∧
    ((blank id).role = .source →
      ∃ s, c.liveSink msg.sink = .ok s ∧ (blank id).sink = s.id ∧
        (blank id).channel = s.channel) := by
  unfold Context.blankAgent at new
  split at new
  · rename_i role
    obtain rfl := Except.ok.inj new
    refine ⟨rfl, role.symm, rfl, rfl, rfl, fun _ => rfl, ?_⟩
    rintro ⟨⟩
  · rename_i role
    cases alive : c.liveSink msg.sink with
    | error fault =>
      rw [alive] at new
      cases new
    | ok s =>
      rw [alive] at new
      obtain rfl := Except.ok.inj new
      refine ⟨rfl, role.symm, rfl, rfl, rfl, ?_, fun _ => ⟨s, rfl, rfl, rfl⟩⟩
      rintro ⟨⟩

/-- The hub while an agent is in the making. -/
def making (hub : Hub) (creation : Creation) : Hub :=
  { hub with creations := creation :: hub.creations }

section Stages

variable {x : Id} {a : Agent} {session : Session} {origin : Origin} {className : String}

/-- A source is ready as soon as its session is built. -/
theorem seenThrough_of_source (source : a.role = .source) :
    ({ hub := hub.making ⟨x, a, .session session, origin⟩
       outcome := .building className } : HubTurn).seenThrough answer
      = hub.enlist x { a with session := some session } origin := by
  have built : (hub.making ⟨x, a, .session session, origin⟩).built
      = some (hub.enlist x { a with session := some session } origin) := by
    simp only [making, Hub.built, source]
  rw [HubTurn.seenThrough_of_building rfl rfl built, HubTurn.withAnswer_of_done (done_enlist ..)]

/-- A sink needs a channel, too. -/
theorem seenThrough_of_sink (isSink : a.role = .sink) :
    ({ hub := hub.making ⟨x, a, .session session, origin⟩
       outcome := .building className } : HubTurn).seenThrough answer
      = match Context.channelOf (answer (Context.channelRequest x a.id)) with
        | .error fault => hub.conclude x origin (.error fault)
        | .ok channel => hub.enlist x { a with session := some session, channel } origin := by
  let ready : Creation := ⟨x, { a with session := some session }, .channel, origin⟩
  have built : (hub.making ⟨x, a, .session session, origin⟩).built
      = some { hub := hub.making ready, outcome := .asking (Context.channelRequest x a.id) } := by
    simp only [making, Hub.built, isSink, ready]
  rw [HubTurn.seenThrough_of_building rfl rfl built]
  have answered : (hub.making ready).answered (answer (Context.channelRequest x a.id))
      = some (match Context.channelOf (answer (Context.channelRequest x a.id)) with
        | .error fault => hub.conclude x origin (.error fault)
        | .ok channel => hub.enlist x { a with session := some session, channel } origin) := by
    simp only [making, Hub.answered, ready]
    cases Context.channelOf (answer (Context.channelRequest x a.id)) <;> rfl
  exact HubTurn.withAnswer_of_asking rfl rfl answered

end Stages

/-- **The stages of a creation as one operation.** -/
theorem makes_cases (there : hub.context? c.id = some c) (msg : ContextMsg) (origin : Origin)
    (answer : Event → Except Fault Event) :
    hub.MakesCases c answer msg origin ((hub.begin c msg origin).seenThrough answer) := by
  cases hub.begin_cases c msg origin with
  | fails ids fault comes used =>
    rw [comes, HubTurn.seenThrough_of_done (done_conclude ..)]
    exact .fails ids hub.sessions fault rfl
  | waits blank id ids session sessions new minted known comes =>
    obtain ⟨isId, role, step, status, alive, ofSink, ofSource⟩ := blankAgent_makes new id
    have begun : (hub.begin c msg origin).hub.ids = ids := by rw [comes]
    change _ = HubTurn.mk (({ hub with ids, sessions } : Hub).making
      ⟨c.id, blank id, .session session, origin⟩) _ _ at comes
    rw [comes]
    cases isRole : (blank id).role with
    | source =>
      have makes : hub.Makes c answer msg { blank id with session := some session } := by
        refine ⟨role, ⟨step, status⟩, alive, ⟨session, rfl, known⟩, fun isSink => ?_, ofSource⟩
        cases isRole.symm.trans isSink
      rw [seenThrough_of_source isRole]
      exact makesCases_enlist there (isId.symm ▸ minted) makes begun
    | sink =>
      rw [seenThrough_of_sink isRole]
      cases assigned : Context.channelOf (answer (Context.channelRequest c.id (blank id).id)) with
      | error fault => exact .fails ids sessions fault rfl
      | ok channel =>
        have makes :
            hub.Makes c answer msg { blank id with session := some session, channel } := by
          refine ⟨role, ⟨step, status⟩, alive, ⟨session, rfl, known⟩, ?_, fun source => ?_⟩
          · exact fun _ => ⟨ofSink isRole, assigned⟩
          · cases isRole.symm.trans source
        exact makesCases_enlist there (isId.symm ▸ minted) makes begun

/-! ## Where an agent is made -/

/-- The context that an agent is to be made in, opened for it or not: it has taken note of the
client, and nothing else has changed. -/
structure Stage (hub : Hub) (e : Event) (c : Context) (fresh : Bool) (hub' : Hub) : Prop where
  named : fresh = false → e.dst ≠ .unassigned ∧ hub'.ids = hub.ids ∧
    ∃ d, hub.contexts.get? e.dst = some d ∧ c = d.noting e
  opened : fresh = true → e.dst = .unassigned ∧ hub.ids.mint = (c.id, hub'.ids) ∧
    c = ({ id := c.id } : Context).noting e
  rest : hub' = { hub with ids := hub'.ids, contexts := hub.contexts.put c.id c }

variable {e : Event} {fresh : Bool} {hub' : Hub}

/-- A context is opened for the agent. -/
theorem stage_of_opened (unnamed : e.dst = .unassigned) (opened : hub.openContext = .ok (c, hub')) :
    c.destroying = false ∧ hub.Stage e (c.noting e) true (hub'.keep (c.noting e)) := by
  obtain ⟨_, id, ids, minted, rfl, rfl⟩ := openContext_eq_ok opened
  have held : ({ hub with ids, contexts := hub.contexts.put id { id } } : Hub).contexts.get? id
      = some { id } := (Table.get?_put ..).trans (if_pos rfl)
  have kept : ({ hub with ids, contexts := hub.contexts.put id { id } } : Hub).keep
      (({ id } : Context).noting e)
      = { hub with ids, contexts := hub.contexts.put id (({ id } : Context).noting e) } := by
    rw [keep_of_held held rfl]
    simp only [Table.put_put]
  rw [kept]
  refine ⟨rfl, ?_, fun _ => ⟨unnamed, minted, rfl⟩, rfl⟩
  rintro ⟨⟩

/-- The agent is made in a context that the hub holds. -/
theorem Fit.stage_of_held (h : hub.Fit) (names : e.dst ≠ .unassigned)
    (held : hub.contexts.get? e.dst = some c) :
    c.destroying = false ∧ hub.Stage e (c.noting e) false (hub.keep (c.noting e)) := by
  obtain ⟨isDst, stands⟩ := h.tidy.held held
  have kept : hub.keep (c.noting e)
      = { hub with contexts := hub.contexts.put c.id (c.noting e) } := by
    rw [@keep_of_held hub e.dst c (c.noting e) held isDst, isDst]
  rw [kept]
  refine ⟨stands, fun _ => ⟨names, rfl, c, held, rfl⟩, ?_, rfl⟩
  rintro ⟨⟩

theorem Fit.stage (h : hub.Fit) (found : hub.contextFor e.dst = .ok (c, fresh, hub')) :
    c.destroying = false ∧ hub.Stage e (c.noting e) fresh (hub'.keep (c.noting e)) := by
  unfold Hub.contextFor at found
  split at found
  · rename_i unnamed
    cases opened : hub.openContext with
    | error fault =>
      rw [opened] at found
      cases found
    | ok new =>
      rw [opened] at found
      obtain ⟨rfl, rfl, rfl⟩ := Except.ok.inj found
      exact stage_of_opened unnamed opened
  · rename_i names
    split at found
    · cases found
    · rename_i held
      obtain ⟨rfl, rfl, rfl⟩ := Except.ok.inj found
      exact h.stage_of_held names held

/-- The context that an agent is to be made in is held meanwhile. -/
theorem Stage.held (stage : hub.Stage e c fresh hub') : hub'.contexts.get? c.id = some c := by
  rw [stage.rest]
  exact (Table.get?_put ..).trans (if_pos rfl)

/-- A request for an agent is refused at once, or it begins to be met in some context. -/
theorem Fit.createAgent_stage (h : hub.Fit) (e : Event) :
    (∃ fault, hub.createAgent e = { hub, outcome := .handled (.error fault) e }) ∨
    ∃ msg c fresh hub', e.payload.contextMsg? = some msg ∧ hub.Stage e c fresh hub' ∧
      hub.createAgent e = hub'.begin c msg (.request e fresh) := by
  unfold Hub.createAgent
  split
  · exact .inl ⟨_, rfl⟩
  · rename_i msg asked
    split
    · exact .inl ⟨_, rfl⟩
    · split
      · exact .inl ⟨_, rfl⟩
      · rename_i c fresh hub' found
        obtain ⟨stands, stage⟩ := h.stage found
        have received : c.receive e = .ok (c.noting e) :=
          Context.receive_eq_ok_iff.2 ⟨stands, rfl⟩
        rw [received]
        exact .inr ⟨msg, c.noting e, fresh, hub'.keep (c.noting e), asked, stage, rfl⟩

/-! ## New identities -/

/-- The numbers that have been handed out for an agent: that of the context that was opened for it,
if one was, and its own. -/
theorem Stage.minted (stage : hub.Stage e c fresh hub') {ids : List Id} {later : IdSource}
    (draws : hub'.ids.Draws ids later) (few : ids.length ≤ 1) :
    hub.ids.between 2 later = (if fresh then [c.id] else []) ++ ids := by
  cases fresh with
  | false =>
    obtain ⟨_, same, _⟩ := stage.named rfl
    rw [same] at draws
    exact draws.between (Nat.le_succ_of_le few) (by decide)
  | true =>
    obtain ⟨_, minted, _⟩ := stage.opened rfl
    exact ((IdSource.draws_mint minted).append draws).between (Nat.succ_le_succ few) (by decide)

/-- What begins to be made in a context that was opened for it takes at least the number of the
context. -/
theorem Stage.mem_minted (stage : hub.Stage e c true hub') (msg : ContextMsg) (origin : Origin) :
    c.id ∈ hub.ids.between 2 (hub'.begin c msg origin).hub.ids := by
  obtain ⟨ids, draws, few⟩ := hub'.draws_begin c msg origin
  rw [stage.minted draws few]
  exact List.mem_cons_self ..

/-- An identity that nobody and nothing at a hub goes by. -/
structure IsUnused (hub : Hub) (id : Id) : Prop where
  assigned : id ≠ .unassigned
  context : hub.reaches id = false
  agents : ∀ {x c}, hub.contexts.get? x = some c → c.agents.get? id = none
  creations : ∀ creation ∈ hub.creations, creation.agent.id ≠ id

theorem isUnused_of_not_isLive {id : Id} (assigned : id ≠ .unassigned)
    (dead : hub.isLive id = false) : hub.IsUnused id := by
  obtain ⟨places, making⟩ := Bool.or_eq_false_iff.1 dead
  obtain ⟨context, agents⟩ := Bool.or_eq_false_iff.1 places
  refine ⟨assigned, context, fun {x c} held => ?_, fun creation mem same => ?_⟩
  · have absent := List.any_eq_false.1 agents _ (Table.mem_of_get? held)
    rwa [Table.has, Bool.not_eq_true, Option.isSome_eq_false_iff, Option.isNone_iff_eq_none]
      at absent
  · refine List.any_eq_false.1 making creation mem (Bool.or_eq_true_iff.2 (.inl ?_))
    exact decide_eq_true same

/-- There is no context of an unused identity. -/
theorem IsUnused.missing {id : Id} (h : hub.IsUnused id) : hub.contexts.get? id = none := by
  have missing := (Bool.or_eq_false_iff.1 h.context).1
  rwa [Table.has, Option.isSome_eq_false_iff, Option.isNone_iff_eq_none] at missing

/-! ## What is left of a request that failed -/

/-- What is left of a request for an agent that failed: some numbers have been used up, and the
context that it was for may have taken note of the client. A context that was opened for it has been
released again, and if it was the only one, then the audio routing has been given back. -/
structure Unwinds (hub : Hub) (e : Event) (t : HubTurn) (e' : Event) : Prop where
  contexts : t.hub.contexts = hub.contexts ∨
    t.hub.contexts = hub.contexts.update e.dst (·.noting e)
  released : ∀ x ∉ (hub.moment (.event e)).minted, t.hub.detached.get? x = hub.detached.get? x
  rest : t.hub =
    { hub with
      ids := t.hub.ids, sessions := t.hub.sessions, contexts := t.hub.contexts
      detached := t.hub.detached }
  silent : t.effects = [] ∨ (t.effects = [.resetAudio] ∧ hub.contexts = [])
  dst : e'.dst = e.dst

/-- The request fails in a context that was there before. -/
theorem Fit.unwinds_named (h : hub.Fit) (stage : hub.Stage e c false hub') (ids : IdSource)
    (sessions : Nat) (fault : Fault) :
    ∃ e', (({ hub' with ids, sessions } : Hub).conclude c.id (.request e false)
        (.error fault)).outcome = .handled (.error fault) e' ∧
      hub.Unwinds e (({ hub' with ids, sessions } : Hub).conclude c.id (.request e false)
        (.error fault)) e' := by
  obtain ⟨_, _, d, held, rfl⟩ := stage.named rfl
  have isDst : (d.noting e).id = e.dst := (h.tidy.held held).1
  refine ⟨_, rfl, ?_⟩
  constructor
  · refine .inr ?_
    show hub'.contexts = _
    rw [stage.rest, isDst]
    unfold Table.update
    rw [held]
  · intro x _
    show hub'.detached.get? x = hub.detached.get? x
    rw [stage.rest]
  · show ({ hub' with ids, sessions } : Hub) = _
    rw [stage.rest]
    rfl
  · exact .inl rfl
  · exact isDst

/-- The request fails in a context that was opened for it, under an unused number. -/
theorem Stage.unwinds_opened (stage : hub.Stage e c true hub') (unused : hub.IsUnused c.id)
    (mints : c.id ∈ (hub.moment (.event e)).minted) (ids : IdSource) (sessions : Nat)
    (fault : Fault) :
    ∃ e', (({ hub' with ids, sessions } : Hub).conclude c.id (.request e true)
        (.error fault)).outcome = .handled (.error fault) e' ∧
      hub.Unwinds e (({ hub' with ids, sessions } : Hub).conclude c.id (.request e true)
        (.error fault)) e' := by
  obtain ⟨unnamed, _, isNew⟩ := stage.opened rfl
  have held : ({ hub' with ids, sessions } : Hub).contexts.get? c.id = some c := stage.held
  have nobody : (({ hub' with ids, sessions } : Hub).context? c.id).all (·.isEmpty) = true := by
    rw [context?_of_held held, isNew]
    rfl
  have others : hub'.contexts.erase c.id = hub.contexts := by
    rw [stage.rest]
    exact (Table.erase_put ..).trans (Table.erase_of_get?_eq_none unused.missing)
  have comes : ({ hub' with ids, sessions } : Hub).conclude c.id (.request e true) (.error fault)
      = { hub := { hub' with
            ids, sessions
            contexts := hub.contexts
            detached := hub.detached.put c.id c.release }
          effects := if hub.contexts.isEmpty then [.resetAudio] else []
          outcome := .handled (.error fault)
            { e with payload := e.payload.withContextAgent .unassigned, dst := .unassigned } } := by
    unfold Hub.conclude Hub.closeContext
    simp only [nobody, held, others]
    rw [stage.rest]
    rfl
  rw [comes]
  refine ⟨_, rfl, ?_⟩
  constructor
  · exact .inl rfl
  · intro x kept
    show (hub.detached.put c.id c.release).get? x = hub.detached.get? x
    have other : x ≠ c.id := by
      rintro rfl
      exact kept mints
    rw [Table.get?_put, if_neg other]
  · rw [stage.rest]
  · cases contexts : hub.contexts with
    | nil => exact .inr ⟨rfl, rfl⟩
    | cons entry rest => exact .inl rfl
  · exact unnamed.symm

/-! ## What comes of a request that is met -/

/-- What comes of a request for an agent that is met: the agent `a` has joined the context `c`,
which is the one that was named, or a new one if none was. Their identities are the numbers that
have just been handed out, and nobody goes by them. Nothing else has changed, and the request is
given back with both identities written into it. -/
structure Admits (hub : Hub) (answer : Event → Except Fault Event) (e : Event) (msg : ContextMsg)
    (c : Context) (a : Agent) (t : HubTurn) (e' : Event) : Prop where
  named : e.dst ≠ .unassigned → (hub.moment (.event e)).minted = [a.id] ∧
    ∃ d, hub.contexts.get? e.dst = some d ∧ c = d.noting e
  opened : e.dst = .unassigned → (hub.moment (.event e)).minted = [c.id, a.id] ∧
    hub.IsUnused c.id ∧ c = ({ id := c.id } : Context).noting e
  unused : hub.IsUnused a.id ∧ a.id ≠ c.id
  made : hub.Makes c answer msg a
  joins : t.hub.contexts = hub.contexts.put c.id { c with agents := c.agents.put a.id a }
  rest : t.hub =
    { hub with ids := t.hub.ids, sessions := t.hub.sessions, contexts := t.hub.contexts }
  silent : t.effects = []
  told : e' = { e with dst := c.id, payload := .context { msg with agent := a.id } }

/-- Whoever is new is neither the context that it is made in nor anybody who is there. -/
theorem Fit.isUnused_of_joins (h : hub.Fit) (stage : hub.Stage e c fresh hub') {a : Agent}
    {ids : IdSource} (drawn : hub'.ids.mint = (a.id, ids))
    (minted : (hub.moment (.event e)).minted = (if fresh then [c.id] else []) ++ [a.id])
    (spares : (hub.moment (.event e)).Spares) : hub.IsUnused a.id ∧ a.id ≠ c.id := by
  have mem : a.id ∈ (hub.moment (.event e)).minted :=
    minted ▸ List.mem_append_right _ (List.mem_singleton_self _)
  have unused : hub.IsUnused a.id :=
    isUnused_of_not_isLive (IdSource.ne_unassigned_of_mint drawn) (spares a.id mem)
  refine ⟨unused, fun same => ?_⟩
  cases fresh with
  | false =>
    obtain ⟨_, _, d, held, rfl⟩ := stage.named rfl
    have isDst : (d.noting e).id = e.dst := (h.tidy.held held).1
    have missing := unused.missing
    rw [same, isDst, held] at missing
    cases missing
  | true =>
    -- one number after the other
    obtain ⟨_, opened, _⟩ := stage.opened rfl
    have draws := (IdSource.draws_mint opened).append (IdSource.draws_mint drawn)
    have once : [c.id, a.id].Nodup := by
      rw [show [c.id, a.id] = hub.ids.take 2 from draws.taken]
      exact hub.ids.nodup_take (by decide)
    exact (List.nodup_cons.1 once).1 (same ▸ List.mem_singleton_self _)

/-- The request is met. -/
theorem Fit.admits (h : hub.Fit) (stage : hub.Stage e c fresh hub')
    (asked : e.payload.contextMsg? = some msg) {a : Agent} {ids : IdSource} (sessions : Nat)
    (drawn : hub'.ids.mint = (a.id, ids))
    (minted : (hub.moment (.event e)).minted = (if fresh then [c.id] else []) ++ [a.id])
    (spares : (hub.moment (.event e)).Spares) (makes : hub'.Makes c answer msg a) :
    ∃ e', ((({ hub' with ids, sessions } : Hub).keep
        { c with agents := c.agents.put a.id a }).conclude c.id (.request e fresh)
        (.ok a.id)).outcome = .handled (.ok ()) e' ∧
      hub.Admits answer e msg c a ((({ hub' with ids, sessions } : Hub).keep
        { c with agents := c.agents.put a.id a }).conclude c.id (.request e fresh) (.ok a.id))
        e' := by
  have kept : ({ hub' with ids, sessions } : Hub).keep { c with agents := c.agents.put a.id a }
      = { hub with
          ids, sessions
          contexts := hub.contexts.put c.id { c with agents := c.agents.put a.id a } } := by
    have held : ({ hub' with ids, sessions } : Hub).contexts.get? c.id = some c := stage.held
    rw [@keep_of_held _ c.id c { c with agents := c.agents.put a.id a } held rfl, stage.rest]
    simp only [Table.put_put]
  have payload : e.payload.withContextAgent a.id = .context { msg with agent := a.id } := by
    revert asked
    cases e.payload <;> rintro ⟨⟩
    rfl
  rw [kept, conclude_request_ok, payload]
  refine ⟨_, rfl, ?_⟩
  constructor
  · intro names
    cases fresh with
    | false => exact ⟨minted, (stage.named rfl).2.2⟩
    | true => exact absurd (stage.opened rfl).1 names
  · intro unnamed
    cases fresh with
    | false => exact absurd unnamed (stage.named rfl).1
    | true =>
      obtain ⟨_, opened, isNew⟩ := stage.opened rfl
      have mem : c.id ∈ (hub.moment (.event e)).minted := minted ▸ List.mem_cons_self ..
      exact ⟨minted, isUnused_of_not_isLive (IdSource.ne_unassigned_of_mint opened)
        (spares c.id mem), isNew⟩
  · exact h.isUnused_of_joins stage drawn minted spares
  · have classes : hub'.classes = hub.classes := by rw [stage.rest]
    exact ⟨makes.role, makes.idle, makes.alive, classes ▸ makes.manned, makes.ofSink,
      makes.ofSource⟩
  · rfl
  · rfl
  · rfl
  · rfl

/-! ## Requests -/

/-- **Agents are made altogether, or not at all.** Whatever has happened to a hub, and whatever the
media channel has to say: a request for an agent is answered. If there is a fault, then nothing is
left of it but what `Unwinds` says, and if not, then an agent has been made and nothing else has
changed. The numbers that are handed out meanwhile are not those of anybody who is there. -/
theorem creation_is_all_or_nothing {hub : Hub} (fresh : hub.IsFresh) (acts : List Act)
    (answer : Event → Except Fault Event) {e : Event} (kind : e.kind = .createAgent)
    (spares : ((hub.after acts).moment (.event e)).Spares) :
    ∃ result e', ((hub.after acts).attend answer e).outcome = .handled result e' ∧
      (∀ fault, result = .error fault →
        (hub.after acts).Unwinds e ((hub.after acts).attend answer e) e') ∧
      (result = .ok () → ∃ msg c a, e.payload.contextMsg? = some msg ∧
        (hub.after acts).Admits answer e msg c a ((hub.after acts).attend answer e) e') := by
  have fit := fresh.fit_after acts
  have isRequest : (hub.after acts).handle e = (hub.after acts).createAgent e := by
    unfold handle
    rw [kind]
  have handles : (hub.after acts).attend answer e
      = ((hub.after acts).createAgent e).seenThrough answer := congrArg _ isRequest
  rw [handles]
  rcases fit.createAgent_stage e with ⟨fault, refused⟩ | ⟨msg, c, fresh, hub', asked, stage, begins⟩
  · rw [refused, HubTurn.seenThrough_of_done rfl]
    exact ⟨_, e, rfl, fun _ _ => ⟨.inl rfl, fun _ _ => rfl, rfl, .inl rfl, rfl⟩,
      fun ok => by cases ok⟩
  · have now : ((hub.after acts).moment (.event e)).minted
        = (hub.after acts).ids.between 2 (hub'.begin c msg (.request e fresh)).hub.ids := by
      rw [← begins, ← isRequest]
      rfl
    have there := context?_of_held stage.held
    rw [begins]
    cases makes_cases there msg (.request e fresh) answer with
    | fails ids sessions fault comes =>
      rw [comes]
      cases fresh with
      | false =>
        obtain ⟨e', outcome, unwinds⟩ := fit.unwinds_named stage ids sessions fault
        exact ⟨_, e', outcome, fun _ _ => unwinds, fun ok => by cases ok⟩
      | true =>
        obtain ⟨_, opened, _⟩ := stage.opened rfl
        have mints := now ▸ stage.mem_minted msg (.request e true)
        have unused := isUnused_of_not_isLive (IdSource.ne_unassigned_of_mint opened)
          (spares c.id mints)
        obtain ⟨e', outcome, unwinds⟩ := stage.unwinds_opened unused mints ids sessions fault
        exact ⟨_, e', outcome, fun _ _ => unwinds, fun ok => by cases ok⟩
    | joins a ids sessions drawn begun makes comes =>
      rw [begun, stage.minted (IdSource.draws_mint drawn) (Nat.le_refl 1)] at now
      rw [comes]
      obtain ⟨e', outcome, admits⟩ := fit.admits stage asked sessions drawn now spares makes
      refine ⟨_, e', outcome, ?_, fun _ => ⟨msg, c, a, asked, admits⟩⟩
      rintro _ ⟨⟩

/-- A second source joins a sharing session; and of a sink that gets no channel nothing is left at a
hub without contexts. -/
theorem creation_is_all_or_nothing_in_sharing :
    (∃ e e' msg c a, Act.request .source 1 2 = .event e ∧
      ((loopback.after Act.sharing).attend .ok e).outcome = .handled (.ok ()) e' ∧
      (loopback.after Act.sharing).Admits .ok e msg c a ((loopback.after Act.sharing).attend .ok e)
        e') ∧
    ∃ e e', Act.request .sink .unassigned .unassigned = .event e ∧
      (loopback.attend (fun _ => .error .syncTimeout) e).outcome
        = .handled (.error .syncTimeout) e' ∧
      loopback.Unwinds e (loopback.attend (fun _ => .error .syncTimeout) e) e' := by
  constructor
  · obtain ⟨e, e₀, isE, kind, spares, ok⟩ : ∃ e e₀, Act.request .source 1 2 = .event e ∧
        e.kind = .createAgent ∧ ((loopback.after Act.sharing).moment (.event e)).Spares ∧
        ((loopback.after Act.sharing).attend .ok e).outcome = .handled (.ok ()) e₀ :=
      ⟨_, _, rfl, rfl, by decide, rfl⟩
    obtain ⟨result, e', outcome, -, met⟩ :=
      creation_is_all_or_nothing isFresh_loopback Act.sharing .ok kind spares
    obtain ⟨rfl, rfl⟩ := Outcome.handled.inj (ok.symm.trans outcome)
    obtain ⟨msg, c, a, -, admits⟩ := met rfl
    exact ⟨e, e₀, msg, c, a, isE, ok, admits⟩
  · obtain ⟨e, e₀, isE, kind, spares, failed⟩ : ∃ e e₀,
        Act.request .sink .unassigned .unassigned = .event e ∧ e.kind = .createAgent ∧
        ((loopback.after []).moment (.event e)).Spares ∧
        (loopback.attend (fun _ => .error .syncTimeout) e).outcome
          = .handled (.error .syncTimeout) e₀ :=
      ⟨_, _, rfl, rfl, by decide, rfl⟩
    obtain ⟨result, e', outcome, unwound, -⟩ :=
      creation_is_all_or_nothing isFresh_loopback [] (fun _ => .error .syncTimeout) kind spares
    obtain ⟨rfl, rfl⟩ := Outcome.handled.inj (failed.symm.trans outcome)
    exact ⟨e, e₀, isE, failed, unwound .syncTimeout rfl⟩

end Hub

end CastHub
