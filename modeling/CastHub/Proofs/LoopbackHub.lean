import CastHub.Proofs.Loopback
import Mathlib.Algebra.GroupWithZero.Nat
/-!
# Hubs with loopback sessions

A hub that knows loopback sessions only (`Hub.Staffed`) makes only agents that keep nobody waiting.
Whoever makes an agent dooms nobody (`Hub.Engages`), and of every event that such a hub handles it
is true that whoever is doomed bids farewell (`Hub.Fit.serves_handle`).

A farewell that comes back to the hub is the end of the one who bids it
(`Hub.Sound.ends_of_farewell`). What follows from it weighs less than the farewell itself
(`Event.weight`), so farewells come to an end.
-/

namespace CastHub

/-! ## Weights -/

/-- How much may follow from an event. -/
def Event.weight (e : Event) : Nat :=
  match e.kind with
  -- a notice, and the farewell of the sink
  | .contextAgentDestroyed => 5
  | .destroyChannel => 3
  | .channelDestroyed => 2
  | .changeMedia _ _ => 2
  | _ => 1

/-- How much may follow from several events. -/
def load (events : List Event) : Nat := (events.map Event.weight).sum

@[simp] theorem load_nil : load [] = 0 := rfl

@[simp] theorem load_cons (e : Event) (rest : List Event) :
    load (e :: rest) = e.weight + load rest := by
  unfold load
  rw [List.map_cons, List.sum_cons]

@[simp] theorem load_append (events more : List Event) :
    load (events ++ more) = load events + load more := by
  unfold load
  rw [List.map_append, List.sum_append]

/-- A farewell that comes to the hub: a sink's from the media channel, or a source's from its
context. -/
theorem Event.farewell?_of_hub {e : Event} {f : Farewell} (bids : e.farewell? = some f)
    (told : e.target = .hub) : f.context = e.dst ∧ e.agent? = some f.agent ∧
      ((e.kind = .channelDestroyed ∧ f.role = .sink) ∨
        (e.kind = .contextAgentDestroyed ∧ f.role = .source)) := by
  unfold farewell? at bids
  rw [told] at bids
  split at bids
  · rename_i isChannel _
    cases isChannel
  · rename_i kind
    obtain ⟨id, named, rfl⟩ := Option.map_eq_some_iff.1 bids
    exact ⟨rfl, named, .inl ⟨kind, rfl⟩⟩
  · rename_i kind
    obtain ⟨id, named, rfl⟩ := Option.map_eq_some_iff.1 bids
    exact ⟨rfl, named, .inr ⟨kind, rfl⟩⟩
  · cases bids

/-! ## Who is there -/

/-- An agent in the making that has, or will have, a loopback session, and goes on living. -/
structure Creation.Staffed (creation : Creation) : Prop where
  alive : creation.agent.step ≠ .destroy
  session : ∀ s, creation.awaited = .session s → s.IsLoopback
  channel : creation.awaited = .channel → creation.agent.IsLoopback

namespace Hub

/-- All sessions that there are, and all that there will be, are loopback sessions. -/
structure Staffed (hub : Hub) : Prop where
  classes : ∀ ⦃name cls⦄, hub.classes.get? name = some cls → cls = Loopback.sessionClass
  contexts : ∀ ⦃x c⦄, hub.contexts.get? x = some c → c.Staffed
  creations : ∀ creation ∈ hub.creations, creation.Staffed

/-- Nothing is sent on its way, and no session is called. -/
def IsSilent (effects : List Effect) : Prop := posts effects = [] ∧ AllDiscreet effects

theorem isSilent_nil : IsSilent [] := ⟨rfl, by rintro _ ⟨⟩⟩

/-- Nobody is doomed by an operation, and all sessions remain loopback sessions. -/
structure Engages (hub hub' : Hub) : Prop where
  staffed : hub'.Staffed
  spared : ∀ ⦃f⦄, hub'.population.Dooms f → hub.population.Dooms f

theorem Staffed.rests {hub : Hub} (h : hub.Staffed) : hub.Engages hub :=
  ⟨h, fun _ doomed => doomed⟩

theorem Engages.trans {a b c : Hub} (h : a.Engages b) (h' : b.Engages c) : a.Engages c :=
  ⟨h'.staffed, fun _ doomed => h.spared (h'.spared doomed)⟩

variable {hub : Hub}

/-- The contexts that are held are the same. -/
theorem Staffed.of_same {hub' : Hub} (h : hub.Staffed) (classes : hub'.classes = hub.classes)
    (contexts : hub'.contexts = hub.contexts)
    (creations : ∀ creation ∈ hub'.creations, creation.Staffed) : hub.Engages hub' where
  staffed :=
    { classes := fun _ _ known => h.classes (classes ▸ known)
      contexts := fun _ _ held => h.contexts (contexts ▸ held)
      creations := creations }
  spared := by
    rintro f ⟨r, m, held, doomed⟩
    refine ⟨r, m, ?_, doomed⟩
    rw [get?_rosters] at held ⊢
    rwa [← contexts]

/-- One context changes, in which nobody is doomed who was not before. -/
theorem Staffed.put (h : hub.Staffed) {x : Id} {c' : Context} (staffed : c'.Staffed)
    (spared : ∀ ⦃id m⦄, c'.roster.get? id = some m → m.doomed = true →
      hub.population.Dooms ⟨x, id, m.role⟩) :
    hub.Engages { hub with contexts := hub.contexts.put x c' } := by
  refine ⟨⟨h.classes, ?_, h.creations⟩, ?_⟩
  · intro y c held
    rcases Table.get?_put_cases held with ⟨_, rfl⟩ | before
    · exact staffed
    · exact h.contexts before
  · rintro ⟨y, id, role⟩ ⟨r, m, held, here, rfl, doomed⟩
    rw [get?_rosters] at held
    obtain ⟨c, there, rfl⟩ := Option.map_eq_some_iff.1 held
    rcases Table.get?_put_cases there with ⟨rfl, rfl⟩ | before
    · exact spared here doomed
    · exact ⟨c.roster, m, roster_of_held before, here, rfl, doomed⟩

/-! ## Contexts come and go -/

theorem Staffed.openContext {hub' : Hub} {c : Context} (h : hub.Staffed)
    (opened : hub.openContext = .ok (c, hub')) : hub.Engages hub' := by
  obtain ⟨_, id, ids, _, rfl, rfl⟩ := openContext_eq_ok opened
  have used : hub.Engages { hub with ids } := h.of_same rfl rfl h.creations
  -- nobody is in the new context
  exact used.trans (used.staffed.put (by rintro _ _ ⟨⟩) (by rintro _ _ ⟨⟩))

theorem isSilent_closeContext (hub : Hub) (x : Id) : IsSilent (hub.closeContext x).2 := by
  unfold Hub.closeContext
  split
  · exact isSilent_nil
  · simp only
    split
    · refine ⟨rfl, ?_⟩
      intro effect mem
      obtain rfl := List.mem_singleton.1 mem
      rfl
    · exact isSilent_nil

theorem isSilent_closeIfEmpty (hub : Hub) (x : Id) : IsSilent (hub.closeIfEmpty x).2 := by
  rcases hub.closeIfEmpty_cases x with same | ⟨_, _, _, closes⟩
  · rw [same]
    exact isSilent_nil
  · rw [closes]
    exact isSilent_closeContext hub x

theorem Staffed.closeContext (h : hub.Staffed) (x : Id) : hub.Engages (hub.closeContext x).1 := by
  unfold Hub.closeContext
  split
  · exact h.rests
  · refine ⟨⟨h.classes, ?_, h.creations⟩, ?_⟩
    · intro y c held
      exact h.contexts (Table.get?_of_get?_erase held)
    · rintro f ⟨r, m, held, doomed⟩
      rw [get?_rosters] at held
      obtain ⟨c, there, rfl⟩ := Option.map_eq_some_iff.1 held
      exact ⟨c.roster, m, roster_of_held (Table.get?_of_get?_erase there), doomed⟩

theorem Staffed.closeIfEmpty (h : hub.Staffed) (x : Id) : hub.Engages (hub.closeIfEmpty x).1 := by
  rcases hub.closeIfEmpty_cases x with same | ⟨_, _, _, closes⟩
  · rw [same]
    exact h.rests
  · rw [closes]
    exact h.closeContext x

/-- A context that takes an event in has the same agents. -/
theorem Fit.engages_received (fit : hub.Fit) (h : hub.Staffed) {x : Id} {c c' : Context} {e : Event}
    (held : hub.contexts.get? x = some c) (received : c.receive e = .ok c') :
    hub.Engages (hub.keep c') := by
  obtain ⟨same, remains⟩ := Context.roster_receive received
  have isX : c'.id = x := remains.id.trans (fit.tidy.held held).1
  rw [keep_of_held held isX]
  apply h.put
  · intro id a here
    rw [agents_of_receive received] at here
    exact h.contexts held here
  · intro id m here doomed
    rw [same] at here
    exact ⟨c.roster, m, roster_of_held held, here, rfl, doomed⟩

/-! ## Agents are made -/

theorem Staffed.conclude (h : hub.Staffed) (x : Id) (origin : Origin) (result : Except Fault Id) :
    hub.Engages (hub.conclude x origin result).hub ∧
      IsSilent (hub.conclude x origin result).effects := by
  obtain ⟨outcome, _, same | ⟨_, closes⟩⟩ := hub.conclude_cases x origin result
  · rw [same]
    exact ⟨h.rests, isSilent_nil⟩
  · rw [closes]
    exact ⟨h.closeContext x, isSilent_closeContext hub x⟩

/-- A new agent has not been told anything yet. -/
theorem step_of_blankAgent {c : Context} {msg : ContextMsg} {blank : Id → Agent}
    (new : c.blankAgent msg = .ok blank) (id : Id) : (blank id).step ≠ .destroy := by
  unfold Context.blankAgent at new
  split at new
  · obtain rfl := Except.ok.inj new
    exact RunStep.noConfusion
  · cases alive : c.liveSink msg.sink with
    | error fault =>
      rw [alive] at new
      cases new
    | ok s =>
      rw [alive] at new
      obtain rfl := Except.ok.inj new
      exact RunStep.noConfusion

theorem Staffed.begin (h : hub.Staffed) (c : Context) (msg : ContextMsg) (origin : Origin) :
    hub.Engages (hub.begin c msg origin).hub ∧ IsSilent (hub.begin c msg origin).effects := by
  cases hub.begin_cases c msg origin with
  | fails ids fault comes used =>
    have used : hub.Engages { hub with ids } := h.of_same rfl rfl h.creations
    obtain ⟨ends, silent⟩ := used.staffed.conclude c.id origin (.error fault)
    rw [comes]
    exact ⟨used.trans ends, silent⟩
  | waits blank id ids session sessions new minted known comes =>
    have first : Creation.Staffed ⟨c.id, blank id, .session session, origin⟩ := by
      refine ⟨step_of_blankAgent new id, ?_, by rintro ⟨⟩⟩
      intro s waits
      obtain rfl := Awaited.session.inj waits
      exact h.classes known
    rw [comes]
    exact ⟨h.of_same rfl rfl (List.forall_mem_cons.2 ⟨first, h.creations⟩), isSilent_nil⟩

/-- An agent with a loopback session joins its context. -/
theorem Fit.engages_publish (fit : hub.Fit) (h : hub.Staffed) {x : Id} {a : Agent}
    (loopback : a.IsLoopback) (alive : a.step ≠ .destroy) {c c' : Context}
    (there : hub.context? x = some c) (published : c.publish a = .ok c') :
    hub.Engages (hub.keep c') := by
  obtain ⟨joined, remains, _⟩ := Context.roster_publish published
  obtain ⟨rfl, _⟩ := Context.publish_eq_ok published
  have isX := remains.id.trans (fit.tidy.id there)
  rcases context?_eq_some there with held | ⟨missing, _⟩
  · rw [keep_of_held held isX]
    apply h.put
    · intro id b here
      rcases Table.get?_put_cases here with ⟨rfl, rfl⟩ | before
      · exact ⟨rfl, loopback⟩
      · exact h.contexts held before
    · intro id m here doomed
      rw [joined] at here
      rcases Table.get?_put_cases here with ⟨_, rfl⟩ | before
      · exact absurd (of_decide_eq_true doomed) alive
      · exact ⟨c.roster, m, roster_of_held held, before, rfl, doomed⟩
  · rw [keep_of_missing missing isX]
    exact h.of_same rfl rfl h.creations

/-- An agent with a loopback session joins its context, if it may. -/
theorem Fit.engages_enlist (fit : hub.Fit) (h : hub.Staffed) {x : Id} {a : Agent}
    (loopback : a.IsLoopback) (alive : a.step ≠ .destroy) (origin : Origin) :
    hub.Engages (hub.enlist x a origin).hub ∧ IsSilent (hub.enlist x a origin).effects := by
  cases hub.enlist_cases x a origin with
  | fails fault comes =>
    rw [comes]
    exact h.conclude ..
  | joins c c' there published comes =>
    have kept := fit.engages_publish h loopback alive there published
    obtain ⟨ends, silent⟩ := kept.staffed.conclude x origin (.ok a.id)
    rw [comes]
    exact ⟨kept.trans ends, silent⟩

/-- The latest creation is looked at. -/
theorem Staffed.drop (h : hub.Staffed) {creation : Creation} {rest : List Creation}
    (latest : hub.creations = creation :: rest) :
    creation.Staffed ∧ hub.Engages { hub with creations := rest } := by
  have all := h.creations
  rw [latest] at all
  obtain ⟨first, others⟩ := List.forall_mem_cons.1 all
  exact ⟨first, h.of_same rfl rfl others⟩

theorem Fit.engages_built (fit : hub.Fit) (h : hub.Staffed) {t : HubTurn}
    (built : hub.built = some t) : hub.Engages t.hub ∧ IsSilent t.effects := by
  cases built_cases built with
  | joins x agent session origin rest latest source comes =>
    obtain ⟨first, dropped⟩ := h.drop latest
    have loopback : Agent.IsLoopback { agent with session := some session } :=
      ⟨session, rfl, first.session session rfl⟩
    have fit' := fit.goes (fit.drop latest)
    obtain ⟨joins, silent⟩ := fit'.engages_enlist dropped.staffed loopback first.alive origin
    rw [comes]
    exact ⟨dropped.trans joins, silent⟩
  | waits x agent session origin rest latest isSink comes =>
    obtain ⟨first, dropped⟩ := h.drop latest
    have loopback : Agent.IsLoopback { agent with session := some session } :=
      ⟨session, rfl, first.session session rfl⟩
    have next : Creation.Staffed ⟨x, { agent with session := some session }, .channel, origin⟩ :=
      ⟨first.alive, by rintro _ ⟨⟩, fun _ => loopback⟩
    rw [comes]
    exact ⟨h.of_same rfl rfl (List.forall_mem_cons.2 ⟨next, dropped.staffed.creations⟩),
      isSilent_nil⟩

theorem Fit.engages_answered (fit : hub.Fit) (h : hub.Staffed) {answer : Except Fault Event}
    {t : HubTurn} (answered : hub.answered answer = some t) :
    hub.Engages t.hub ∧ IsSilent t.effects := by
  cases answered_cases answered with
  | fails x agent origin rest fault latest comes =>
    obtain ⟨_, dropped⟩ := h.drop latest
    obtain ⟨ends, silent⟩ := dropped.staffed.conclude x origin (.error fault)
    rw [comes]
    exact ⟨dropped.trans ends, silent⟩
  | joins x agent origin rest channel latest assigned comes =>
    obtain ⟨first, dropped⟩ := h.drop latest
    have loopback : Agent.IsLoopback { agent with channel } := first.channel rfl
    have fit' := fit.goes (fit.drop latest)
    obtain ⟨joins, silent⟩ := fit'.engages_enlist dropped.staffed loopback first.alive origin
    rw [comes]
    exact ⟨dropped.trans joins, silent⟩

/-- The context that an agent is made in has nobody new in it. -/
theorem Staffed.contextFor (h : hub.Staffed) {hub' : Hub} {dst : Id} {c : Context} {fresh : Bool}
    (found : hub.contextFor dst = .ok (c, fresh, hub')) : hub.Engages hub' := by
  rcases contextFor_eq_ok found with ⟨_, opened⟩ | ⟨_, _, rfl⟩
  · exact h.openContext opened
  · exact h.rests

theorem Fit.engages_createAgent (fit : hub.Fit) (h : hub.Staffed) (e : Event) :
    hub.Engages (hub.createAgent e).hub ∧ IsSilent (hub.createAgent e).effects := by
  cases hub.createAgent_cases e with
  | refused fault comes =>
    rw [comes]
    exact ⟨h.rests, isSilent_nil⟩
  | shut c fresh hub' fault found comes =>
    rw [comes]
    exact ⟨h.contextFor found, isSilent_nil⟩
  | begins msg c c' fresh hub' asked room found received comes =>
    obtain ⟨opens, held, _⟩ := fit.contextFor found
    have fit' : hub'.Fit := fit.turned (@opens true)
    have opened := h.contextFor found
    have kept := fit'.engages_received opened.staffed held received
    obtain ⟨begins, silent⟩ := kept.staffed.begin c' msg (.request e fresh)
    rw [comes]
    exact ⟨opened.trans (kept.trans begins), silent⟩

theorem Staffed.configure (h : hub.Staffed) (payload : Payload) :
    hub.Engages (hub.configure payload) := by
  unfold Hub.configure
  split
  · split
    · exact h.rests
    · exact h.of_same rfl rfl h.creations
  · exact h.rests

/-! ## Whoever is doomed bids farewell -/

/-- What is known of an operation of a hub with loopback sessions. -/
structure Serves (hub : Hub) (effects : List Effect) (hub' : Hub) : Prop where
  staffed : hub'.Staffed
  discreet : AllDiscreet effects
  routine : ∀ e ∈ posts effects, e.IsRoutine
  /-- Whoever is doomed was doomed before, or bids farewell. -/
  owed : ∀ ⦃f⦄, hub'.population.Dooms f →
    hub.population.Dooms f ∨ f ∈ farewells (posts effects)
  bid : ∀ f ∈ farewells (posts effects), hub.population.Falls f hub'.population
  /-- Nobody bids farewell twice. -/
  once : (farewells (posts effects)).Nodup

/-- Where nobody is doomed, nobody bids farewell. -/
theorem Engages.serves {hub' : Hub} {effects : List Effect} (h : hub.Engages hub')
    (silent : IsSilent effects) : hub.Serves effects hub' where
  staffed := h.staffed
  discreet := silent.2
  routine := by
    rw [silent.1]
    rintro _ ⟨⟩
  owed := fun _ doomed => .inl (h.spared doomed)
  bid := by
    rw [silent.1]
    rintro _ ⟨⟩
  once := by
    rw [silent.1]
    exact List.nodup_nil

/-- A context has taken an event in, and something has become of its agents. -/
theorem Fit.serves_keep (fit : hub.Fit) (h : hub.Staffed) {x : Id} {c c' c'' : Context} {e : Event}
    {effects : List Effect} (held : hub.contexts.get? x = some c)
    (received : c.receive e = .ok c') (bids : c'.Bids effects c'') (remains : c'.Remains c'') :
    hub.Serves effects (hub.keep c'') := by
  obtain ⟨same, remained⟩ := Context.roster_receive received
  have isX : c'.id = x := remained.id.trans (fit.tidy.held held).1
  have isStillX : c''.id = x := remains.id.trans isX
  have rosters := roster_of_held held
  rw [keep_of_held held isStillX]
  refine ⟨⟨h.classes, ?_, h.creations⟩, bids.discreet, bids.routine, ?_, ?_, bids.once⟩
  · intro y d there
    rcases Table.get?_put_cases there with ⟨_, rfl⟩ | before
    · exact bids.staffed
    · exact h.contexts before
  · rintro ⟨y, id, role⟩ ⟨r, m, there, here, rfl, doomed⟩
    rw [get?_rosters] at there
    obtain ⟨d, isThere, rfl⟩ := Option.map_eq_some_iff.1 there
    rcases Table.get?_put_cases isThere with ⟨rfl, rfl⟩ | before
    · rcases bids.owed here doomed with ⟨n, was, wasDoomed⟩ | now
      · obtain ⟨o, isIt, ages⟩ := bids.wanes here
        rw [was] at isIt
        obtain rfl := Option.some.inj isIt
        have role : n.role = m.role := by rw [← Member.role_who, ← ages.who, Member.role_who]
        exact .inl ⟨c.roster, n, rosters, same ▸ was, role, wasDoomed⟩
      · rw [isX] at now
        exact .inr now
    · exact .inl ⟨d.roster, m, roster_of_held before, here, rfl, doomed⟩
  · intro f mem
    obtain ⟨context, ⟨n, known, alive⟩, doomed⟩ := bids.bid f mem
    have isIn : f.context = x := context.trans isX
    rw [same] at known
    refine ⟨⟨c.roster, n, isIn ▸ rosters, known, alive⟩, ?_⟩
    intro r m now here
    rw [isIn, get?_rosters] at now
    obtain ⟨d, there, rfl⟩ := Option.map_eq_some_iff.1 now
    rw [Table.get?_put, if_pos rfl] at there
    obtain rfl := Option.some.inj there
    exact doomed here

/-- A context that is held after another has been closed was held before. -/
theorem held_of_closeIfEmpty {x y : Id} {c : Context}
    (held : (hub.closeIfEmpty x).1.contexts.get? y = some c) : hub.contexts.get? y = some c := by
  rcases hub.closeIfEmpty_cases x with same | ⟨d, isHeld, _, closes⟩
  · rwa [same] at held
  · rw [closes, (closeContext_of_held isHeld).1] at held
    exact Table.get?_of_get?_erase held

/-- A context is closed afterwards, if nobody is left in it. -/
theorem Serves.closeIfEmpty {hub' : Hub} {effects : List Effect} (h : hub.Serves effects hub')
    (x : Id) :
    hub.Serves (effects ++ (hub'.closeIfEmpty x).2) (hub'.closeIfEmpty x).1 := by
  have closes := h.staffed.closeIfEmpty x
  have silent := isSilent_closeIfEmpty hub' x
  have same : posts (effects ++ (hub'.closeIfEmpty x).2) = posts effects := by
    rw [posts_append, silent.1, List.append_nil]
  refine ⟨closes.staffed, allDiscreet_append.2 ⟨h.discreet, silent.2⟩, ?_, ?_, ?_, ?_⟩
  · rw [same]
    exact h.routine
  · rw [same]
    intro f doomed
    exact h.owed (closes.spared doomed)
  · rw [same]
    intro f mem
    obtain ⟨alive, doomed⟩ := h.bid f mem
    refine ⟨alive, fun r m held here => doomed ?_ here⟩
    rw [get?_rosters] at held ⊢
    obtain ⟨c, there, rfl⟩ := Option.map_eq_some_iff.1 held
    rw [held_of_closeIfEmpty there]
    rfl
  · rw [same]
    exact h.once

/-- A context that has taken an event in has the agents that it had. -/
theorem Staffed.received (h : hub.Staffed) {x : Id} {c c' : Context} {e : Event}
    (held : hub.contexts.get? x = some c) (received : c.receive e = .ok c') : c'.Staffed := by
  intro id a here
  rw [agents_of_receive received] at here
  exact h.contexts held here

theorem Fit.serves_deliver (fit : hub.Fit) (h : hub.Staffed) {x : Id} {c : Context} (e : Event)
    (held : hub.contexts.get? x = some c) :
    hub.Serves (hub.deliver c e).effects (hub.deliver c e).hub := by
  cases hub.deliver_cases c e with
  | refused fault refuses comes =>
    rw [comes]
    exact h.rests.serves isSilent_nil
  | unclear c' received asks comes =>
    rw [comes]
    exact (fit.engages_received h held received).serves isSilent_nil
  | begins c' msg received asks asked comes =>
    have kept := fit.engages_received h held received
    obtain ⟨begins, silent⟩ := kept.staffed.begin c' msg (.event e)
    rw [comes]
    exact (kept.trans begins).serves silent
  | carries c' received other comes =>
    obtain ⟨same, _⟩ := Context.roster_receive received
    have sorted : c'.roster.Sorted := same ▸ (fit.filed held).sorted
    have bids := (h.received held received).bids_carryOut sorted e
    rw [comes]
    exact fit.serves_keep h held received bids (c'.remains_carryOut e)

theorem Fit.serves_channelDestroyed (fit : hub.Fit) (h : hub.Staffed) (e : Event) :
    hub.Serves (hub.channelDestroyed e).effects (hub.channelDestroyed e).hub := by
  cases hub.channelDestroyed_cases e with
  | dropped missing comes =>
    rw [comes]
    exact h.rests.serves isSilent_nil
  | refused c fault held refuses comes =>
    rw [comes]
    exact (h.closeIfEmpty c.id).serves (isSilent_closeIfEmpty hub c.id)
  | ends c c' held received comes =>
    have bids := (h.received held received).bids_agentDestroyed e
    have left := fit.serves_keep h held received bids (c'.remains_agentDestroyed e)
    rw [comes]
    exact left.closeIfEmpty c'.id

/-- **In a hub with loopback sessions, whoever is doomed bids farewell**, whatever the hub is
sent. -/
theorem Fit.serves_handle (fit : hub.Fit) (h : hub.Staffed) (e : Event) :
    hub.Serves (hub.handle e).effects (hub.handle e).hub := by
  cases hub.handle_cases e with
  | configures kind comes =>
    rw [comes]
    exact (h.configure e.payload).serves isSilent_nil
  | full fault kind comes =>
    rw [comes]
    exact h.rests.serves isSilent_nil
  | opens c hub' kind opened comes =>
    rw [comes]
    exact (h.openContext opened).serves isSilent_nil
  | creates kind comes =>
    obtain ⟨engages, silent⟩ := fit.engages_createAgent h e
    rw [comes]
    exact engages.serves silent
  | ends kind comes =>
    rw [comes]
    exact fit.serves_channelDestroyed h e
  | dropped notAgent notChannel missing comes =>
    rw [comes]
    exact h.rests.serves isSilent_nil
  | delivers c notAgent notChannel held comes =>
    rw [comes]
    exact fit.serves_deliver h e held

/-! ## A farewell is the end -/

end Hub

namespace Context

variable {c : Context}

/-- Settling a sink gives rise to one farewell at most. -/
theorem Staffed.load_settleSink (h : c.Staffed) {sink : Id}
    (isSink : ∀ s, c.agents.get? sink = some s → s.role = .sink) :
    load (posts (c.settleSink sink).effects) ≤ 3 := by
  unfold settleSink
  split
  · exact Nat.zero_le _
  · rename_i s here
    split
    · show load (posts ((c.tell sink _).effects ++ [])) ≤ 3
      rw [List.append_nil]
      have told := h.posts_tell (e := c.sinkDestruction sink) here rfl
      rcases told with ⟨_, none⟩ | ⟨_, post, one, _, kind⟩
      · rw [none]
        exact Nat.zero_le _
      · rw [one, load_cons]
        unfold Event.weight
        rw [kind (isSink s here)]
        exact Nat.le_refl _
    · exact Nat.zero_le _

/-- How much follows when an agent leaves: the notice, and for a source the farewell of its sink. -/
def heft : Role → Nat
  | .sink => 1
  | .source => 4

theorem Staffed.load_afterLeave (h : c.Staffed) (attached : c.roster.Attached) {id : Id} {a : Agent}
    (here : c.agents.get? id = some a) :
    load (posts (c.afterLeave id a).effects) + 1 ≤ heft a.role := by
  unfold afterLeave
  cases role : a.role with
  | sink => exact Nat.le_refl _
  | source =>
    -- whoever goes next is the sink of the one that leaves
    have isSink : ∀ s, (c.retire id a).agents.get? a.sink = some s → s.role = .sink := by
      intro s there
      have before := member_of_agent (Table.get?_of_get?_erase there)
      obtain ⟨t, found, isSink, _⟩ := attached.anchored (member_of_agent here) role
      have same : s.member = t := Option.some.inj (before.symm.trans found)
      rw [← same] at isSink
      exact isSink
    have load := (h.bids_retire id a).staffed.load_settleSink isSink
    simp only
    show _ + 1 ≤ 4
    omega

/-- A doomed agent that has finished destroying is not refused its leave. -/
theorem Staffed.agentDestroyed_of_doomed (h : c.Staffed) (attached : c.roster.Attached)
    (settled : c.roster.Settled) {e : Event} {a : Agent} (named : e.agent? = some a.id)
    (here : c.agents.get? a.id = some a) (doomed : a.member.doomed = true) :
    (c.agentDestroyed e).context.roster = c.roster.leave a.member ∧
      (c.agentDestroyed e).result = .ok () ∧
      load (posts (c.agentDestroyed e).effects) ≤ heft a.role := by
  have leaves : c.leaver? e = some a := by
    refine leaver?_eq_some.2 ⟨a.id, named, here, fun isSink => ?_⟩
    rw [← hasSourceOf_roster]
    exact ((settled (member_of_agent here) isSink).1 doomed).2
  obtain ⟨after, effects, ended⟩ := agentDestroyed_of_leaver? named leaves
  refine ⟨?_, ended, ?_⟩
  · rw [after]
    exact roster_afterLeave rfl
  · rw [effects, posts_append, load_append]
    exact h.load_afterLeave attached here

end Context

namespace Hub

variable {hub : Hub}

/-- Only a request for an agent waits for anybody. -/
theorem handled_handle {e : Event} (notAgent : e.kind ≠ .createAgent)
    (notContext : e.kind ≠ .contextCreateAgent) :
    ∃ result e', (hub.handle e).outcome = .handled result e' := by
  cases hub.handle_cases e with
  | configures kind comes =>
    rw [comes]
    exact ⟨_, _, rfl⟩
  | full fault kind comes =>
    rw [comes]
    exact ⟨_, _, rfl⟩
  | opens c hub' kind opened comes =>
    rw [comes]
    exact ⟨_, _, rfl⟩
  | creates kind comes => exact absurd kind notAgent
  | ends kind comes =>
    rw [comes]
    cases hub.channelDestroyed_cases e with
    | dropped missing comes =>
      rw [comes]
      exact ⟨_, _, rfl⟩
    | refused c fault held refuses comes =>
      rw [comes]
      exact ⟨_, _, rfl⟩
    | ends c c' held received comes =>
      rw [comes]
      exact ⟨_, _, rfl⟩
  | dropped notAgent notChannel missing comes =>
    rw [comes]
    exact ⟨_, _, rfl⟩
  | delivers c notAgent notChannel held comes =>
    rw [comes]
    cases hub.deliver_cases c e with
    | refused fault refuses comes =>
      rw [comes]
      exact ⟨_, _, rfl⟩
    | unclear c' received asks comes => exact absurd asks notContext
    | begins c' msg received asks asked comes => exact absurd asks notContext
    | carries c' received other comes =>
      rw [comes]
      exact ⟨_, _, rfl⟩

/-- A context that the hub holds takes events in. -/
theorem Fit.receive_of_held (fit : hub.Fit) {x : Id} {c : Context}
    (held : hub.contexts.get? x = some c) (e : Event) : ∃ c', c.receive e = .ok c' := by
  unfold Context.receive
  rw [(fit.tidy.held held).2]
  exact ⟨_, rfl⟩

theorem rosters_keep {x : Id} {c c' : Context} (held : hub.contexts.get? x = some c)
    (same : c'.id = x) :
    (hub.keep c').population.rosters = hub.population.rosters.put x c'.roster := by
  rw [population_keep_of_held held same]

theorem rosters_closeIfEmpty {x : Id} {c : Context} (held : hub.contexts.get? x = some c) :
    (hub.closeIfEmpty x).1.population.rosters
      = if c.roster = [] then hub.population.rosters.erase x else hub.population.rosters := by
  unfold Hub.closeIfEmpty
  by_cases empty : c.isEmpty = true
  · rw [held, if_pos (Context.roster_eq_nil.2 empty)]
    simp only [Option.any_some, empty, if_true]
    rw [(closeContext_of_held held).1]
    exact Table.mapValues_erase ..
  · rw [held, if_neg fun nobody => empty (Context.roster_eq_nil.1 nobody)]
    simp only [Option.any_some, empty]
    rfl

/-- What happens in a context when a farewell reaches it. -/
theorem Sound.parts_in_context (sound : hub.Sound) (h : hub.Staffed) {e : Event} {f : Farewell}
    (dooms : hub.population.Dooms f) (named : e.agent? = some f.agent) {c c' : Context}
    (held : hub.contexts.get? f.context = some c) (received : c.receive e = .ok c') :
    ∃ m, c.roster.get? m.id = some m ∧ m.id = f.agent ∧ m.role = f.role ∧ m.doomed = true ∧
      (c'.agentDestroyed e).context.roster = c.roster.leave m ∧
      (c'.agentDestroyed e).result = .ok () ∧
      load (posts (c'.agentDestroyed e).effects) ≤ Context.heft f.role := by
  obtain ⟨same, _⟩ := Context.roster_receive received
  have there := context?_of_held held
  obtain ⟨m, member, role, doomed⟩ := dooms.of_held (roster_of_held held)
  obtain ⟨a, here, rfl⟩ := Context.agent_of_member member
  have keyed : a.id = f.agent := ((sound.filed held).keyed member).1
  rw [← keyed] at named here member
  have attached : c'.roster.Attached := same ▸ sound.attached there
  have settled : c'.roster.Settled := same ▸ sound.sound.settled (holds_of_context? there)
  obtain ⟨left, ended, light⟩ := (h.received held received).agentDestroyed_of_doomed attached
    settled named (agents_of_receive received ▸ here) doomed
  rw [same] at left
  refine ⟨a.member, member, keyed, role, doomed, left, ended, ?_⟩
  rw [← role]
  exact light

/-- Whoever bids farewell is the one that is removed. -/
theorem removed?_of_dooms {f : Farewell} (dooms : hub.population.Dooms f) {isOk : Bool}
    (ended : isOk = true) : hub.removed? (some (f.context, f.agent)) isOk
      = some (f.context, f.agent) := by
  obtain ⟨r, m, held, here, _⟩ := dooms
  rw [get?_rosters] at held
  obtain ⟨c, there, rfl⟩ := Option.map_eq_some_iff.1 held
  obtain ⟨a, found, _⟩ := Context.agent_of_member here
  rw [removed?_some, holds_of_held there, Table.has, found, ended]
  rfl

/-- What a farewell that reaches the hub comes to: whoever bids it leaves, and nobody else, and so
much follows at most. -/
structure Ends (hub : Hub) (f : Farewell) (e : Event) (most : Nat) : Prop where
  parts : hub.population.Parts f (hub.handle e).hub.population
  removed : (hub.moment (.event e)).removal? = some (f.context, f.agent)
  light : load (posts (hub.handle e).effects) ≤ most

/-- The farewell of a source reaches its context. -/
theorem Sound.ends_of_source (sound : hub.Sound) (h : hub.Staffed) {e : Event} {f : Farewell}
    (dooms : hub.population.Dooms f) (isDst : f.context = e.dst)
    (named : e.agent? = some f.agent) (kind : e.kind = .contextAgentDestroyed)
    (source : f.role = .source) : hub.Ends f e 4 := by
  have passes : isForContext e.kind = true := by
    rw [kind]
    rfl
  have ⟨r, _, isHeld, _⟩ := dooms
  rw [get?_rosters] at isHeld
  obtain ⟨c, held, _⟩ := Option.map_eq_some_iff.1 isHeld
  obtain ⟨c', received⟩ := sound.receive_of_held held e
  obtain ⟨_, remained⟩ := Context.roster_receive received
  have isX : c'.id = f.context := remained.id.trans (sound.tidy.held held).1
  have kept := rosters_keep held ((c'.remains_agentDestroyed e).id.trans isX)
  have ends : c'.carryOut e = c'.agentDestroyed e := by simp only [Context.carryOut, kind]
  have comes := handle_of_held passes (isDst ▸ held) received
  rw [ends] at comes
  obtain ⟨m, here, isIt, role, doomed, left, ended, light⟩ :=
    sound.parts_in_context h dooms named held received
  rw [source] at light role
  -- the sink of the source stays behind
  have others := (sound.attached (context?_of_held held)).leave_ne_nil here role
  rw [left] at kept
  constructor
  · rw [comes]
    exact .left c.roster m (roster_of_held held) here isIt doomed others kept
  · show hub.removed? (Act.event e).unmakes? (hub.handle e).outcome.isOk = _
    rw [unmakes?_event, if_pos (.inr kind), named, Option.map_some, ← isDst, comes]
    exact removed?_of_dooms dooms (congrArg Except.isOk ended)
  · rw [comes]
    exact light

/-- The farewell of a sink comes back from the media channel. -/
theorem Sound.ends_of_sink (sound : hub.Sound) (h : hub.Staffed) {e : Event} {f : Farewell}
    (dooms : hub.population.Dooms f) (isDst : f.context = e.dst)
    (named : e.agent? = some f.agent) (kind : e.kind = .channelDestroyed)
    (isSink : f.role = .sink) : hub.Ends f e 1 := by
  have ⟨r, _, isHeld, _⟩ := dooms
  rw [get?_rosters] at isHeld
  obtain ⟨c, held, _⟩ := Option.map_eq_some_iff.1 isHeld
  obtain ⟨c', received⟩ := sound.receive_of_held held e
  have comes := hub.handle_of_channelDestroyed kind
  cases hub.channelDestroyed_cases e with
  | dropped missing =>
    rw [← isDst, held] at missing
    cases missing
  | refused d fault held' refuses =>
    rw [← isDst, held] at held'
    obtain rfl := Option.some.inj held'
    rw [received] at refuses
    cases refuses
  | ends d d' held' received' ends =>
    rw [← isDst, held] at held'
    obtain rfl := Option.some.inj held'
    obtain rfl := Except.ok.inj (received.symm.trans received')
    rw [ends] at comes
    obtain ⟨_, remained⟩ := Context.roster_receive received
    have isX : c'.id = f.context := remained.id.trans (sound.tidy.held held).1
    have still := (c'.remains_agentDestroyed e).id.trans isX
    have kept := rosters_keep held still
    have closes := rosters_closeIfEmpty (get?_keep held still)
    have silent := isSilent_closeIfEmpty (hub.keep (c'.agentDestroyed e).context) f.context
    obtain ⟨m, here, isIt, role, doomed, left, ended, light⟩ :=
      sound.parts_in_context h dooms named held received
    rw [isSink] at light
    rw [kept, left] at closes
    constructor
    · rw [comes, isX]
      split at closes
      · rename_i nobody
        exact .last c.roster m (roster_of_held held) here isIt doomed nobody closes
      · rename_i others
        exact .left c.roster m (roster_of_held held) here isIt doomed others closes
    · show hub.removed? (Act.event e).unmakes? (hub.handle e).outcome.isOk = _
      rw [unmakes?_event, if_pos (.inl kind), named, Option.map_some, ← isDst, comes]
      exact removed?_of_dooms dooms (congrArg Except.isOk ended)
    · rw [comes, isX]
      simp only [posts_append, silent.1, List.append_nil]
      exact light

/-- **A farewell that reaches the hub is the end of whoever bids it**, and less follows from it than
from what has come before. -/
theorem Sound.ends_of_farewell (sound : hub.Sound) (h : hub.Staffed) {e : Event} {f : Farewell}
    (bids : e.farewell? = some f) (told : e.target = .hub) (dooms : hub.population.Dooms f) :
    hub.Ends f e (e.weight - 1) := by
  obtain ⟨isDst, named, kind⟩ := Event.farewell?_of_hub bids told
  rcases kind with ⟨kind, isSink⟩ | ⟨kind, source⟩
  · have weight : e.weight = 2 := by simp only [Event.weight, kind]
    rw [weight]
    exact sound.ends_of_sink h dooms isDst named kind isSink
  · have weight : e.weight = 5 := by simp only [Event.weight, kind]
    rw [weight]
    exact sound.ends_of_source h dooms isDst named kind source

/-- An agent that is told of a change of its media object has nothing to say. -/
theorem Fit.handle_changed (fit : hub.Fit) (h : hub.Staffed) {e : Event} {change : MediaChange}
    (kind : e.kind = .prosumerState change) :
    (hub.handle e).hub.population.rosters = hub.population.rosters ∧
      posts (hub.handle e).effects = [] := by
  have passes : isForContext e.kind = true := by
    rw [kind]
    rfl
  cases held : hub.contexts.get? e.dst with
  | none =>
    rw [handle_of_missing passes held]
    exact ⟨rfl, rfl⟩
  | some c =>
    obtain ⟨c', received⟩ := fit.receive_of_held held e
    have passesOn : c'.carryOut e = c'.distribute e := by simp only [Context.carryOut, kind]
    rw [handle_of_held passes held received, passesOn]
    have other : e.kind.step ≠ .destroy := by
      rw [kind]
      exact RunStep.noConfusion
    have goes := fit.distribute held received other
    constructor
    · obtain ⟨same, remained⟩ := Context.roster_receive received
      have sorted : c'.roster.Sorted := same ▸ (fit.filed held).sorted
      have unchanged := (Context.roster_distribute sorted other).trans same
      have isX := (remained.trans (c'.remains_distribute e)).id.trans (fit.tidy.held held).1
      simp only
      rw [rosters_keep held isX, unchanged]
      exact Table.put_self fit.orderly.sorted (roster_of_held held)
    · simp only
      unfold Context.distribute
      split
      · rfl
      · rename_i id _
        cases here : c'.agents.get? id with
        | none =>
          rw [Context.tell_of_missing here]
          rfl
        | some a =>
          have loopback := (h.contexts held (agents_of_receive received ▸ here)).2
          rw [Context.tell_of_here here, Context.posts_effects]
          have silent := Agent.reports_handle_of_changed loopback kind
          unfold AgentTurn.reports at silent
          rw [silent]
          rfl

end Hub

end CastHub
