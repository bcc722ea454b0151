import CastHub.Proofs.Deliveries
import CastHub.Proofs.Notices
/-!
# Teardowns are completed

If a client asks a service at rest that a sink be destroyed, the sink and its sources have left when
the service has come to rest again, and its context is closed if no other sink is in it
(`Service.teardowns_are_completed`).
-/

namespace CastHub

open Population (gone joined Recorded)

/-! ## Who is cleared out -/

namespace Population

/-- A sink is torn down in a population `p`, which makes it `q`, and at rest it has become `r`. -/
structure Clears (cs : List Change) (p q r : Population) (x : Id) (c : Roster)
    (sink : Member) : Prop where
  sound : p.Sound
  record : p.Recorded cs r
  held : p.rosters.get? x = some c
  here : c.get? sink.id = some sink
  isSink : sink.role = .sink
  torn : q.rosters.get? x = some (c.tearDown sink.id)
  dwindles : q.Dwindles r
  alive : ∀ ⦃id m⦄, c.get? id = some m → m.destroying = false
  atRest : ∀ ⦃y d id m⦄, r.rosters.get? y = some d → d.get? id = some m → m.destroying = false

/-- Where no identity is handed out, none is met again. -/
theorem spares_of_minted {p : Population} {cs : List Change} (none : minted cs = []) :
    p.Spares cs where
  unused := by
    rw [none]
    rintro _ ⟨⟩
  once := none ▸ List.nodup_nil

/-- Whoever has the identity of somebody who was there before is that one. -/
theorem Recorded.eq_of_id {cs : List Change} {p q : Population} (h : p.Recorded cs q)
    {j g : Id × Member} (there : j ∈ p.present) (later : g ∈ q.present)
    (same : g.2.id = j.2.id) : g = j :=
  h.injective (h.came_of_present later) (List.mem_append_left _ there) same

variable {cs : List Change} {p q r : Population} {x : Id} {c : Roster} {sink : Member}

/-- The sink is not there any more: it would be destroying. -/
theorem Clears.sink_absent (h : Clears cs p q r x c sink) {g : Id × Member}
    (there : g ∈ r.present) : g.2.id ≠ sink.id := by
  intro same
  have was := (h.sound.present_of_roster h.held h.here).1
  have isIt := h.record.eq_of_id was there same
  obtain ⟨d, m, held, here, _⟩ := h.record.sound.mem_present.1 there
  rw [isIt] at held here
  obtain ⟨d', before, wanes, _⟩ := h.dwindles.wanes held
  obtain ⟨n, torn, ages⟩ := wanes here
  rw [h.torn] at before
  obtain rfl := Option.some.inj before
  obtain ⟨n', isSink, destroying⟩ := Roster.destroying_tearDown h.here h.isSink
  have own : (c.tearDown sink.id).get? sink.id = some n := torn
  rw [isSink] at own
  obtain rfl := Option.some.inj own
  have alive := h.atRest held here
  rw [ages.destroying destroying] at alive
  cases alive

/-- None of its sources is there any more: it would hang on the sink. -/
theorem Clears.source_absent (h : Clears cs p q r x c sink) {y : Id} {n : Member}
    (attached : n.isSourceOf sink.id = true) : (y, n) ∉ r.present := by
  intro there
  obtain ⟨d, m, held, here, who⟩ := h.record.sound.mem_present.1 there
  rw [← who, Member.isSourceOf_who] at attached
  obtain ⟨source, own⟩ := Member.isSourceOf_iff.1 attached
  obtain ⟨s, found, _⟩ := (h.record.sound.attached_of_held held).anchored here source
  obtain ⟨still, keyed⟩ := h.record.sound.present_of_roster held found
  exact h.sink_absent still (keyed.trans own)

/-- **The context is closed if nobody but the sink and its sources was in it.** -/
theorem Clears.closed_iff (h : Clears cs p q r x c sink) :
    r.rosters.get? x = none ↔
      ∀ ⦃id m⦄, c.get? id = some m → m.role = .sink → id = sink.id := by
  have attached := h.sound.attached_of_held h.held
  constructor
  · intro closed id m there isSink
    by_contra other
    -- another sink stays, and so does the context
    have stays := Roster.get?_tearDown_of_sink attached.sorted h.here h.isSink there isSink other
    obtain ⟨d, held, _⟩ := h.dwindles.stays h.torn stays isSink (h.alive there)
    rw [closed] at held
    cases held
  · intro only
    by_contra open_
    obtain ⟨d, held⟩ := Option.ne_none_iff_exists'.1 open_
    obtain ⟨d', before, wanes, someone⟩ := h.dwindles.wanes held
    rw [h.torn] at before
    obtain rfl := Option.some.inj before
    obtain ⟨n, torn, _⟩ := Roster.destroying_tearDown h.here h.isSink
    have left : d ≠ [] := by
      apply someone
      intro nobody
      rw [nobody] at torn
      cases torn
    -- so there is a sink, which was there before, and is not the one that was torn down
    obtain ⟨id, m, there, isSink⟩ :=
      (h.record.sound.attached_of_held held).exists_sink left
    obtain ⟨m₁, torn₁, ages₁⟩ := wanes there
    obtain ⟨m₀, first, ages₀⟩ := c.wanes_tearDown sink.id torn₁
    have who : m.who = m₀.who := (ages₀.trans ages₁).who
    have role : m₀.role = .sink := (congrArg Member.role who).symm.trans isSink
    obtain ⟨still, keyed⟩ := h.record.sound.present_of_roster held there
    exact h.sink_absent still (keyed.trans (only first role))

/-- Whoever was there and is not any more is announced once. -/
theorem Clears.announced (h : Clears cs p q r x c sink) {j : Id × Member}
    (there : j ∈ p.present) (absent : j ∉ r.present) :
    ((gone cs).map partingOf).filter (·.agent? = some j.2.id) = [partingOf j] := by
  rw [Hub.filter_partingOf, (h.record.leaves_once there absent).2]
  rfl

/-- A source is announced before its sink. -/
theorem Clears.announced_before (h : Clears cs p q r x c sink) {j : Id × Member}
    (there : j ∈ p.present) (attached : j.2.isSourceOf sink.id = true)
    {earlier later : List Payload} {notice : Payload}
    (said : (gone cs).map partingOf = earlier ++ notice :: later)
    (names : notice.agent? = some sink.id) : partingOf j ∈ earlier := by
  obtain ⟨left, _, order, rfl, rest⟩ := List.map_eq_append_iff.1 said
  obtain ⟨g, _, rfl, rfl, _⟩ := List.map_eq_cons_iff.1 rest
  have isSink : g.2.id = sink.id := Option.some.inj names
  have leaves := (h.record.leaves_once there (h.source_absent attached)).1
  have sooner := sooner_of_ordered h.record.ordered order leaves (isSink ▸ attached) ?_
  · exact List.mem_map_of_mem sooner
  · -- the sink is no source
    rintro rfl
    obtain ⟨was, _⟩ := h.sound.present_of_roster h.held h.here
    have same : j = (x, sink.who) := h.record.injective (List.mem_append_left _ there)
      (List.mem_append_left _ was) isSink
    have source := (Member.isSourceOf_iff.1 attached).1
    rw [same, Member.role_who, h.isSink] at source
    cases source

end Population

/-! ## Teardowns -/

/-- What the hub makes of a request that somebody be destroyed. -/
theorem Hub.Fit.handle_destroyAgent {hub : Hub} (fit : hub.Fit) {e : Event} {c : Context} {id : Id}
    (held : hub.contexts.get? e.dst = some c) (kind : e.kind = .contextDestroyAgent)
    (named : e.agent? = some id) :
    (∃ result, (hub.handle e).outcome = .handled result e) ∧
      (hub.handle e).hub.population.rosters.get? e.dst = some (c.roster.tearDown id) := by
  obtain ⟨c', received⟩ := fit.receive_of_held held e
  obtain ⟨same, remains⟩ := Context.roster_receive received
  have passes : Hub.isForContext e.kind = true := by
    rw [kind]
    rfl
  have ends : c'.carryOut e = c'.destroyAgent e := by simp only [Context.carryOut, kind]
  have isX := (remains.trans (c'.remains_destroyAgent e)).id.trans (fit.tidy.held held).1
  have torn := c'.roster_destroyAgent (EventKind.step_eq_destroy_iff.2 (.inl kind))
  rw [named, same] at torn
  rw [Hub.handle_of_held passes held received, ends]
  refine ⟨⟨_, rfl⟩, ?_⟩
  rw [Hub.rosters_keep held isX, Table.get?_put, if_pos rfl, torn]
  rfl

namespace Service

variable {s : Service}

/-- If nothing is on its way, a request is handled at once. -/
theorem IsUp.serveRequest_of_idle (up : s.IsUp) (idle : s.queue = []) {client : Id}
    {request : Request} {e : Event} (asks : request.toEvent client = .ok e) :
    (s.serveRequest client request).2 = ((s.record e).consult e).2 := by
  have sent : s.submit e = { s.record e with queue := [.request e] } := by
    have sent : s.submit e = { s.record e with queue := s.queue ++ [.request e] } :=
      if_pos up.isOpen
    rw [sent, idle]
    rfl
  have taken : ({ s.record e with queue := [] } : Service) = s.record e := by
    rw [← idle]
    rfl
  have serves : (s.serveRequest client request).2
      = ((s.submit e).drain s.queue.length).next.2 := by
    unfold Service.serveRequest
    rw [asks]
    rfl
  rw [serves, idle, sent]
  show (Service.consult { s.record e with queue := [] } e).2 = _
  rw [taken]

/-- A request that a sink be destroyed begins its teardown: no number is handed out, and nothing but
events is put in the queue. -/
theorem Steady.asks_destroy (h : s.Steady []) (idle : s.queue = []) {x : Id} {c : Context}
    (held : s.hub.contexts.get? x = some c) (client sink : Id) {asked : Service}
    (asks : (s.serveRequest client (.destroyAgent x sink)).2 = asked) :
    s.Works [] [] [] asked ∧ asked.IsUnasked ∧
      asked.hub.population.rosters.get? x = some (c.roster.tearDown sink) := by
  let e : Event :=
    { kind := .contextDestroyAgent, sender := .interaction, target := .hub, src := client,
      dst := x, payload := .agent { agent := sink } }
  obtain ⟨⟨result, handled⟩, torn⟩ :=
    @Hub.Fit.handle_destroyAgent _ h.sound.toFit e c sink held rfl rfl
  have recorded := h.goOn_nil (h.up.record e)
  have serves : asked = (s.record e).undergo (.event e) := by
    rw [← asks, h.up.serveRequest_of_idle idle (e := e) rfl]
    exact @consult_of_handled (s.record e) e e result handled
  have none : ((s.record e).hub.moment (.event e)).minted = [] :=
    Hub.minted_handle EventKind.noConfusion EventKind.noConfusion EventKind.noConfusion
  have works : (s.record e).Works _ [] [] ((s.record e).undergo (.event e)) :=
    recorded.steady.undergo_tame rfl (Moment.spares_of_minted none) rfl rfl
      (recorded.steady.sound.serves_handle recorded.steady.staffed e)
  rw [none] at works
  have goesOn := recorded.steady.up.undergo (.event e)
  rw [serves]
  refine ⟨recorded.trans works, ?_, ?_⟩
  · intro envelope mem
    rw [goesOn.queue] at mem
    rcases List.mem_append.1 mem with before | now
    · rw [show (s.record e).queue = [] from idle] at before
      cases before
    · obtain ⟨posted, _, rfl⟩ := List.mem_map.1 now
      exact ⟨posted, rfl⟩
  · rw [goesOn.hub]
    exact torn

/-- The notices about somebody among several events. -/
def noticesAbout (events : List Event) (id : Id) : List Payload :=
  (noticesIn events).filter (·.agent? = some id)

/-- The teardown of a sink of a context that was `c` is completed when a service that has been asked
for it has delivered `n` events. What was posted on the way has been delivered then, so the notices
that were delivered are those that were posted. -/
structure Completes (asked : Service) (x : Id) (c : Context) (sink : Id) (n : Nat) : Prop where
  /-- There is nothing left to deliver. -/
  idle : (asked.drain n).queue = []
  sinkOnce : noticesAbout (asked.delivered n) sink = [Context.partingNotice x sink .sink]
  sourcesOnce : ∀ ⦃id a⦄, c.agents.get? id = some a → a.role = .source → a.sink = sink →
    noticesAbout (asked.delivered n) id = [Context.partingNotice x id .source]
  /-- The sink is announced after all of its sources. -/
  sourcesFirst : ∀ ⦃id a⦄, c.agents.get? id = some a → a.role = .source → a.sink = sink →
    ∀ ⦃earlier notice later⦄, noticesIn (asked.delivered n) = earlier ++ notice :: later →
      notice.agent? = some sink → Context.partingNotice x id .source ∈ earlier
  sinkGone : ∀ y, (asked.drain n).hub.holds y sink = false
  sourcesGone : ∀ ⦃id a⦄, c.agents.get? id = some a → a.role = .source → a.sink = sink →
    ∀ y, (asked.drain n).hub.holds y id = false
  /-- The context is closed exactly if it had no other sink. -/
  closed : (asked.drain n).hub.contexts.get? x = none ↔
    ∀ ⦃id a⦄, c.agents.get? id = some a → a.role = .sink → id = sink

/-- What becomes of a service at rest that is asked to destroy a sink, until it is at rest again. -/
theorem Steady.clears (h : s.Steady []) (idle : s.queue = []) {x : Id} {c : Context}
    {a : Agent} (held : s.hub.contexts.get? x = some c) (here : c.agents.get? a.id = some a)
    (isSink : a.role = .sink) {client : Id} {asked : Service}
    (asks : (s.serveRequest client (.destroyAgent x a.id)).2 = asked) {n : Nat}
    (atRest : (asked.drain n).queue = []) :
    ∃ cs, Population.Clears cs s.hub.population asked.hub.population
        (asked.drain n).hub.population x c.roster a.member ∧
      (gone cs).map partingOf = noticesIn (asked.delivered n) ∧ (asked.drain n).Steady [] := by
  obtain ⟨works, unasked, torn⟩ := h.asks_destroy idle held client a.id asks
  obtain ⟨drained, dwindles⟩ := works.steady.drain unasked n
  obtain ⟨cs, leads, none, steady⟩ := works.trans drained
  have said := leads.said
  unfold Service.posted at said
  rw [idle, atRest] at said
  refine ⟨cs, ?_, ?_, steady⟩
  · constructor
    · exact h.sound.sound
    · exact h.sound.sound.recorded_run leads.run (Population.spares_of_minted none) leads.kept
    · exact Hub.roster_of_held held
    · exact Context.member_of_agent here
    · exact isSink
    · exact torn
    · exact dwindles
    · intro id m there
      obtain ⟨b, agent, rfl⟩ := Context.agent_of_member there
      exact h.alive idle held agent
    · intro y d id m own there
      rw [Hub.get?_rosters] at own
      obtain ⟨c', held', rfl⟩ := Option.map_eq_some_iff.1 own
      obtain ⟨b, agent, rfl⟩ := Context.agent_of_member there
      exact steady.alive atRest held' agent
  · exact said.trans (List.append_nil _)

/-- At rest, a service completes the teardown of any sink that it is asked to destroy. -/
theorem Steady.completes (h : s.Steady []) (idle : s.queue = []) {x sink : Id} {c : Context}
    {a : Agent} (held : s.hub.contexts.get? x = some c) (here : c.agents.get? sink = some a)
    (isSink : a.role = .sink) (client : Id) :
    ∃ n, (s.serveRequest client (.destroyAgent x sink)).2.Completes x c sink n := by
  obtain ⟨works, unasked, _⟩ := h.asks_destroy idle held client sink rfl
  obtain ⟨n, atRest⟩ := works.steady.comes_to_rest unasked
  obtain ⟨there, rfl⟩ := h.sound.mem_present held here
  generalize asks : (s.serveRequest client (.destroyAgent x a.id)).2 = asked at atRest ⊢
  obtain ⟨cs, clears, said, steady⟩ := h.clears idle held here isSink asks atRest
  -- a source of the sink was there, too
  have sources : ∀ {id b}, c.agents.get? id = some b → b.role = .source → b.sink = a.id →
      (x, b.member.who) ∈ s.hub.population.present ∧ b.id = id ∧
        Member.isSourceOf a.member.id b.member.who = true := by
    intro id b agent source own
    obtain ⟨was, keyed⟩ := h.sound.mem_present held agent
    exact ⟨was, keyed, Member.isSourceOf_iff.2 ⟨source, own⟩⟩
  have notice : ∀ {b : Agent} {role}, b.role = role →
      partingOf (x, b.member.who) = Context.partingNotice x b.id role := by
    rintro b _ rfl
    rfl
  have absent : ∀ {id}, (∀ g ∈ (asked.drain n).hub.population.present, g.2.id ≠ id) →
      ∀ y, (asked.drain n).hub.holds y id = false := by
    intro id nobody y
    rw [Bool.eq_false_iff]
    intro holds
    obtain ⟨m, still, same⟩ := steady.sound.holds_iff.1 holds
    exact nobody _ still same
  refine ⟨n, ?_⟩
  constructor
  · exact atRest
  · have once := clears.announced there fun still => clears.sink_absent still rfl
    rw [said, notice isSink] at once
    exact once
  · intro id b agent source own
    obtain ⟨was, rfl, attached⟩ := sources agent source own
    have once := clears.announced was (clears.source_absent attached)
    rw [said, notice source] at once
    exact once
  · intro id b agent source own earlier other later split names
    obtain ⟨was, rfl, attached⟩ := sources agent source own
    rw [← said] at split
    rw [← notice source]
    exact clears.announced_before was attached split names
  · exact absent fun g still => clears.sink_absent still
  · intro id b agent source own
    obtain ⟨was, rfl, attached⟩ := sources agent source own
    apply absent
    intro g still same
    have isIt := clears.record.eq_of_id was still same
    exact clears.source_absent attached (isIt ▸ still)
  · rw [← Option.map_eq_none_iff, ← Hub.get?_rosters, clears.closed_iff]
    constructor
    · intro only id b agent isSink
      exact only (Context.member_of_agent agent) isSink
    · intro only id m there isSink
      obtain ⟨b, agent, rfl⟩ := Context.agent_of_member there
      exact only agent isSink

/-- **Teardowns are completed.** Whatever clients have asked a new service for, and whenever it was
their turn: as long as no live number has been met again, once the queue is empty, no agent of any
context is to be destroyed; and if a client then asks for the destruction of a sink, the queue is
empty again after finitely many deliveries, the sink and all of its sources have left, each of them
was announced once and the sink last, and the context is closed exactly if there was no other sink
in it. -/
theorem teardowns_are_completed {s : Service} (new : s.IsNew) (moves : List Move)
    (clients : ∀ m ∈ moves, m.IsClients)
    (spares : ∀ m ∈ s.hub.journal (s.acts moves), m.Spares) (idle : (s.run moves).queue = []) :
    (∀ ⦃x c id a⦄, (s.run moves).hub.contexts.get? x = some c → c.agents.get? id = some a →
      a.destroying = false) ∧
    (∀ ⦃x c sink a⦄, (s.run moves).hub.contexts.get? x = some c → c.agents.get? sink = some a →
      a.role = .sink → ∀ client, ∃ n,
        ((s.run moves).serveRequest client (.destroyAgent x sink)).2.Completes x c sink n) := by
  have steady := new.steady.run clients spares
  constructor
  · intro x c id a held here
    exact steady.alive idle held here
  · intro x c sink a held here isSink client
    exact steady.completes idle held here isSink client

/-- A service with loopback sessions and a loopback media channel, to which nothing has happened
yet. -/
def loopback : Service := { hub := .loopback, endpoints := [(.mediaChannel, .loopback {})] }

theorem isNew_loopback : loopback.IsNew where
  up := ⟨rfl, {}, rfl⟩
  fresh := Hub.isFresh_loopback
  classes := by
    intro name cls known
    change (if name = Loopback.className then some Loopback.sessionClass else none) = some cls
      at known
    split at known
    · exact (Option.some.inj known).symm
    · cases known
  idle := rfl

/-- A client asks for a sink in a new context, and a second one for a source of it before the first
has been served. -/
def sharing : List Move :=
  [.submit
      { kind := .createAgent, sender := .interaction, target := .hub, src := 1, dst := .unassigned,
        payload := .context
          { ContextMsg.create Loopback.className .sink with interaction := 1 } },
    .submit
      { kind := .createAgent, sender := .interaction, target := .hub, src := 2, dst := 1,
        payload := .context
          { ContextMsg.create Loopback.className .source with sink := 2, interaction := 2 } },
    .delivery, .delivery]

theorem sharing_isClients : ∀ m ∈ sharing, m.IsClients := by
  intro m mem
  rcases List.mem_cons.1 mem with rfl | mem
  · exact .submit 1 (.createAgent none Loopback.className .sink none) _ rfl
  rcases List.mem_cons.1 mem with rfl | mem
  · exact .submit 2 (.createAgent (some 1) Loopback.className .source (some 2)) _ rfl
  rcases List.mem_cons.1 mem with rfl | mem
  · exact .delivery
  · obtain rfl := List.mem_singleton.1 mem
    exact .delivery

/-- So it is when clients have made a sink and a source of it. -/
theorem teardowns_are_completed_after_sharing : ∃ c a b,
    (loopback.run sharing).hub.contexts.get? 1 = some c ∧ c.agents.get? 2 = some a ∧
      a.role = .sink ∧ c.agents.get? 3 = some b ∧ b.role = .source ∧ b.sink = 2 ∧
      a.destroying = false ∧ ∃ n,
        ((loopback.run sharing).serveRequest 1 (.destroyAgent 1 2)).2.Completes 1 c 2 n := by
  have made : ∃ c a b,
      (loopback.run sharing).hub.contexts.get? 1 = some c ∧ c.agents.get? 2 = some a ∧
        a.role = .sink ∧ c.agents.get? 3 = some b ∧ b.role = .source ∧ b.sink = 2 :=
    ⟨_, _, _, rfl, rfl, rfl, rfl, rfl, rfl⟩
  obtain ⟨c, a, b, held, here, isSink, there, source, own⟩ := made
  obtain ⟨alive, completes⟩ := teardowns_are_completed isNew_loopback sharing sharing_isClients
    (by decide) rfl
  exact ⟨c, a, b, held, here, isSink, there, source, own, alive held here,
    completes held here isSink 1⟩

end Service

end CastHub
