import CastHub.Proofs.Acts
/-!
# Who is left behind in a released context

A context that is released loses its agents at once, and takes no event in from then on. But an
agent may be in the making there. If it is a source, it is turned away when it is ready, because its
sink has gone (`Population.Sound.bereft_run`). If it is a sink, nobody looks: it joins the released
context, and whoever asked for it is told that it was made (`a_sink_is_stranded`).

Nothing else goes wrong. Whoever stands in a released context is such a sink, and every other agent
that a request is answered with stands in a context that the hub holds
(`only_forsaken_sinks_are_stranded`), as long as no live number is met again.
-/

namespace CastHub

/-- The answer to a request for an agent, if it says that the agent was made. -/
def Outcome.granted? : Outcome → Option Event
  | .handled (.ok _) e => if e.kind = .createAgent then some e else none
  | _ => none

/-- Whether an event goes to a context past the hub. A context has no use for requests to the hub,
so what it makes of them is no answer. -/
def Act.isPastHub : Act → Bool
  | .contextEvent _ _ => true
  | _ => false

/-- The answer to a request for an agent at the moment at which it is given, if the agent was
made. -/
def Moment.granted? (m : Moment) : Option Event :=
  if m.act.isPastHub then none else m.turn.outcome.bind Outcome.granted?

/-- While the session of a sink is being built, the context that was opened for it is released. -/
def Act.forsaking : List Act :=
  [request .sink .unassigned .unassigned, close 1, built, grant 7]

namespace Population

/-! ## Sources of a released context -/

/-- No source in the making has its sink in a context that has been released. -/
def Bereft (p : Population) : Prop :=
  ∀ ar ∈ p.arrivals, ar.member.role = .source → p.rosters.get? ar.context = none →
    ∀ r, p.detached.get? ar.context = some r → r.get? ar.member.sink = none

/-- The contexts that are held are the same, or some more. -/
theorem Bereft.fewer {p q : Population} (h : p.Bereft) (fewer : q.arrivals ⊆ p.arrivals)
    (missing : ∀ {x}, q.rosters.get? x = none → p.rosters.get? x = none)
    (detached : q.detached = p.detached) : q.Bereft := by
  intro ar mem source gone r kept
  exact h ar (fewer mem) source (missing gone) r (detached ▸ kept)

/-- A context that is closed has nobody in it, so no sink either. -/
theorem Bereft.detach {p : Population} (h : p.Bereft) (x : Id) : (p.detach x).Bereft := by
  intro ar mem source gone r kept
  change (p.rosters.erase x).get? ar.context = none at gone
  change (p.detached.put x []).get? ar.context = some r at kept
  rw [Table.get?_put] at kept
  split at kept
  · cases kept
    rfl
  · rename_i other
    rw [Table.get?_erase, if_neg other] at gone
    exact h ar mem source gone r kept

theorem Sound.bereft_step {p q : Population} {c : Change} (sound : p.Sound) (h : p.Bereft)
    (step : Step p c q) : q.Bereft := by
  -- a context that is missing after one has been written was missing before
  have missing : ∀ {x y : Id} {r : Roster}, (p.rosters.put y r).get? x = none →
      p.rosters.get? x = none := by
    intro x y r gone
    rw [Table.get?_put] at gone
    split at gone
    · cases gone
    · exact gone
  cases step with
  | limited limits => exact h
  | opened x assigned room => exact h.fewer (List.Subset.refl _) missing rfl
  | closed x empty => exact h.detach x
  | released x r held => exact h.detach x
  | begun ar assigned new room r held anchored =>
    intro br mem source gone s kept
    rcases List.mem_cons.1 mem with rfl | before
    · -- a source begins to be made in a context that is held
      have gone : p.rosters.get? br.context = none := gone
      rw [held] at gone
      cases gone
    · exact h br before source gone s kept
  | dropped ar rest latest => exact h.fewer (latest ▸ List.subset_cons_self ..) id rfl
  | published ar rest m r latest held ready welcome =>
    exact h.fewer (latest ▸ List.subset_cons_self ..) missing rfl
  | stranded ar rest m r latest gone kept ready welcome =>
    have fewer : rest ⊆ p.arrivals := latest ▸ List.subset_cons_self ..
    have isIt : m.id = ar.member.id := by rw [ready.eq]
    intro br mem source absent s later
    rcases Table.get?_put_cases later with ⟨same, rfl⟩ | before
    · -- whoever joins was in the making, so it is nobody's sink yet
      have other := (sound.awaits br (fewer mem)).sinkMade source ar (latest ▸ List.mem_cons_self ..)
      rw [Table.get?_put, if_neg (isIt ▸ other.symm)]
      exact h br (fewer mem) source absent r (same ▸ kept)
    · exact h br (fewer mem) source absent s before
  | tornDown x id r held => exact h.fewer (List.Subset.refl _) missing rfl
  | left x r m held here free => exact h.fewer (List.Subset.refl _) missing rfl

theorem Sound.bereft_run {p q : Population} {cs : List Change} (sound : p.Sound) (h : p.Bereft)
    (run : Run p cs q) (spares : p.Spares cs) : q.Bereft := by
  induction run with
  | nil => exact h
  | snoc before step ih =>
    exact (sound.run before spares.of_append).bereft_step (ih spares.of_append) step

end Population

namespace Hub

/-- An agent stands in a context that has been released. -/
def Strays (hub : Hub) (x id : Id) : Prop :=
  ∃ c, hub.detached.get? x = some c ∧ c.agents.has id = true

/-- A sink is in the making in a context that the hub does not hold any more. -/
def Forsakes (hub : Hub) (x id : Id) : Prop :=
  ∃ creation ∈ hub.creations, creation.context = x ∧ creation.agent.id = id ∧
    creation.agent.role = .sink ∧ hub.contexts.get? x = none

/-- At some point of a history, a sink was in the making in a context that had been released. -/
def Forsaken (hub : Hub) (acts : List Act) (x id : Id) : Prop :=
  ∃ m ∈ hub.journal acts, m.before.Forsakes x id

/-! ## What leaves released contexts alone -/

/-- Nobody joins a context that has been released. -/
def Spares (hub hub' : Hub) : Prop := ∀ ⦃x id⦄, hub'.Strays x id → hub.Strays x id

theorem Spares.refl (hub : Hub) : hub.Spares hub := fun _ _ strays => strays

theorem Spares.trans {a b c : Hub} (h : a.Spares b) (h' : b.Spares c) : a.Spares c :=
  fun _ _ strays => h (h' strays)

theorem spares_of_same {hub hub' : Hub} (same : hub'.detached = hub.detached) :
    hub.Spares hub' := by
  rintro x id ⟨c, kept, here⟩
  exact ⟨c, same ▸ kept, here⟩

theorem spares_closeContext (hub : Hub) (x : Id) : hub.Spares (hub.closeContext x).1 := by
  unfold closeContext
  split
  · exact .refl hub
  · rintro y id ⟨d, kept, here⟩
    rcases Table.get?_put_cases kept with ⟨_, rfl⟩ | before
    · cases here
    · exact ⟨d, before, here⟩

theorem spares_closeIfEmpty (hub : Hub) (x : Id) : hub.Spares (hub.closeIfEmpty x).1 := by
  rcases hub.closeIfEmpty_cases x with same | ⟨_, _, _, closes⟩
  · rw [same]
    exact .refl hub
  · rw [closes]
    exact spares_closeContext hub x

theorem detached_openContext {hub hub' : Hub} {c : Context}
    (opened : hub.openContext = .ok (c, hub')) : hub'.detached = hub.detached := by
  obtain ⟨_, _, _, _, _, rfl⟩ := openContext_eq_ok opened
  rfl

theorem detached_contextFor {hub hub' : Hub} {dst : Id} {c : Context} {fresh : Bool}
    (found : hub.contextFor dst = .ok (c, fresh, hub')) : hub'.detached = hub.detached := by
  rcases contextFor_eq_ok found with ⟨_, opened⟩ | ⟨_, _, rfl⟩
  · exact detached_openContext opened
  · rfl

theorem spares_conclude (hub : Hub) (x : Id) (origin : Origin) (result : Except Fault Id) :
    hub.Spares (hub.conclude x origin result).hub := by
  obtain ⟨outcome, _, same | ⟨_, closes⟩⟩ := hub.conclude_cases x origin result
  · rw [same]
    exact .refl hub
  · rw [closes]
    exact spares_closeContext hub x

theorem spares_begin (hub : Hub) (c : Context) (msg : ContextMsg) (origin : Origin) :
    hub.Spares (hub.begin c msg origin).hub := by
  cases hub.begin_cases c msg origin with
  | fails ids fault comes used =>
    have same : hub.Spares { hub with ids } := spares_of_same rfl
    rw [comes]
    exact same.trans (spares_conclude ..)
  | waits blank id ids session sessions new minted known comes =>
    rw [comes]
    exact spares_of_same rfl

variable {hub : Hub}

/-- A context that is held is written back where it was. -/
theorem Fit.spares_keep (h : hub.Fit) {x : Id} {c c' : Context}
    (held : hub.contexts.get? x = some c) (remains : c.Remains c') : hub.Spares (hub.keep c') := by
  rw [keep_of_held held (remains.id.trans (h.tidy.held held).1)]
  exact spares_of_same rfl

theorem has_of_roster {c c' : Context} (same : c'.roster = c.roster) (id : Id) :
    c'.agents.has id = c.agents.has id := by
  have there : ∀ d : Context, d.agents.has id = (d.roster.get? id).isSome := by
    intro d
    rw [Context.get?_roster, Option.isSome_map]
    rfl
  rw [there, there, same]

/-- A context, held or released, is written back with the agents that it had. -/
theorem Fit.spares_keep_same (h : hub.Fit) {x : Id} {c c' : Context}
    (there : hub.context? x = some c) (remains : c.Remains c') (same : c'.roster = c.roster) :
    hub.Spares (hub.keep c') := by
  rcases context?_eq_some there with held | ⟨missing, released⟩
  · exact h.spares_keep held remains
  · rw [keep_of_missing missing (remains.id.trans (h.tidy.id there))]
    rintro y id ⟨d, kept, here⟩
    rcases Table.get?_put_cases kept with ⟨rfl, rfl⟩ | before
    · exact ⟨c, released, has_of_roster same id ▸ here⟩
    · exact ⟨d, before, here⟩

theorem Fit.spares_deliver (h : hub.Fit) {x : Id} {c : Context} (e : Event)
    (there : hub.context? x = some c) : hub.Spares (hub.deliver c e).hub := by
  cases hub.deliver_cases c e with
  | refused fault refuses comes =>
    rw [comes]
    exact .refl hub
  | unclear c' received asks comes =>
    have held := h.held_of_receive there received
    rw [comes]
    exact h.spares_keep held (Context.roster_receive received).2
  | begins c' msg received asks asked comes =>
    have held := h.held_of_receive there received
    have kept := h.spares_keep held (Context.roster_receive received).2
    rw [comes]
    exact kept.trans (spares_begin ..)
  | carries c' received other comes =>
    have held := h.held_of_receive there received
    have remains := (Context.roster_receive received).2.trans (c'.remains_carryOut e)
    rw [comes]
    exact h.spares_keep held remains

theorem Fit.spares_createAgent (h : hub.Fit) (e : Event) : hub.Spares (hub.createAgent e).hub := by
  cases hub.createAgent_cases e with
  | refused fault comes =>
    rw [comes]
    exact .refl hub
  | shut c fresh hub' fault found comes =>
    rw [comes]
    exact spares_of_same (detached_contextFor found)
  | begins msg c c' fresh hub' asked room found received comes =>
    obtain ⟨opens, held, _⟩ := h.contextFor found
    have fit : hub'.Fit := h.turned (@opens true)
    have opened : hub.Spares hub' := spares_of_same (detached_contextFor found)
    have kept := fit.spares_keep held (Context.roster_receive received).2
    rw [comes]
    exact opened.trans (kept.trans (spares_begin ..))

theorem Fit.spares_channelDestroyed (h : hub.Fit) (e : Event) :
    hub.Spares (hub.channelDestroyed e).hub := by
  cases hub.channelDestroyed_cases e with
  | dropped missing comes =>
    rw [comes]
    exact .refl hub
  | refused c fault held refuses comes =>
    rw [comes]
    exact spares_closeIfEmpty ..
  | ends c c' held received comes =>
    have remains := (Context.roster_receive received).2.trans (c'.remains_agentDestroyed e)
    rw [comes]
    exact (h.spares_keep held remains).trans (spares_closeIfEmpty ..)

theorem spares_configure (hub : Hub) (payload : Payload) : hub.Spares (hub.configure payload) := by
  unfold configure
  split
  · split <;> exact spares_of_same rfl
  · exact .refl hub

theorem Fit.spares_handle (h : hub.Fit) (e : Event) : hub.Spares (hub.handle e).hub := by
  cases hub.handle_cases e with
  | configures kind comes =>
    rw [comes]
    exact spares_configure ..
  | full fault kind comes =>
    rw [comes]
    exact .refl hub
  | opens c hub' kind opened comes =>
    rw [comes]
    exact spares_of_same (detached_openContext opened)
  | creates kind comes =>
    rw [comes]
    exact h.spares_createAgent e
  | ends kind comes =>
    rw [comes]
    exact h.spares_channelDestroyed e
  | dropped notAgent notChannel missing comes =>
    rw [comes]
    exact .refl hub
  | delivers c notAgent notChannel held comes =>
    rw [comes]
    exact h.spares_deliver e (context?_of_held held)

theorem Fit.spares_overhear (h : hub.Fit) (x id : Id) (news : SessionNews) :
    hub.Spares (hub.overhear x id news).hub := by
  unfold Hub.overhear
  split
  · exact .refl hub
  · rename_i c there
    split
    · refine h.spares_keep_same there (c.remains_tell id (·.overhear news)) ?_
      exact Context.roster_tell_of_same (h.sorted there) fun a => a.member_hear news
    · split
      · exact h.spares_keep_same there (c.remains_tellRetired ..) (c.roster_tellRetired ..)
      · exact spares_of_same rfl

/-! ## How the making of an agent ends -/

/-- What becomes of the latest agent in the making when somebody comes that it waits for. -/
inductive Ending (hub : Hub) (t : HubTurn) : Prop
  /-- It waits for somebody else. -/
  | waits (request : Event) (same : t.hub.detached = hub.detached)
      (asks : t.outcome = .asking request)
  /-- Nothing. -/
  | fails (x : Id) (origin : Origin) (rest : List Creation) (fault : Fault)
      (comes : t = ({ hub with creations := rest } : Hub).conclude x origin (.error fault))
  /-- It is ready to join its context. -/
  | joins (creation : Creation) (rest : List Creation) (a : Agent)
      (latest : hub.creations = creation :: rest) (same : a.id = creation.agent.id)
      (role : a.role = creation.agent.role) (sink : a.sink = creation.agent.sink)
      (comes : t = ({ hub with creations := rest } : Hub).enlist creation.context a creation.origin)

theorem ending_built {t : HubTurn} (built : hub.built = some t) : hub.Ending t := by
  cases built_cases built with
  | joins x a session origin rest latest source comes =>
    exact .joins _ _ { a with session := some session } latest rfl rfl rfl comes
  | waits x a session origin rest latest isSink comes =>
    rw [comes]
    exact .waits _ rfl rfl

theorem ending_answered {answer : Except Fault Event} {t : HubTurn}
    (answered : hub.answered answer = some t) : hub.Ending t := by
  cases answered_cases answered with
  | fails x a origin rest fault latest comes => exact .fails _ _ _ _ comes
  | joins x a origin rest channel latest assigned comes =>
    exact .joins _ _ { a with channel } latest rfl rfl rfl comes

/-- Only a sink finds its way into a context that has been released: the sink of a source would have
to be there. -/
theorem forsakes_of_publish (bereft : hub.population.Bereft) {creation : Creation}
    (mem : creation ∈ hub.creations) {a : Agent} (same : a.id = creation.agent.id)
    (role : a.role = creation.agent.role) (sink : a.sink = creation.agent.sink) {c c' : Context}
    (there : hub.context? creation.context = some c)
    (missing : hub.contexts.get? creation.context = none) (published : c.publish a = .ok c') :
    hub.Forsakes creation.context a.id := by
  refine ⟨creation, mem, rfl, same.symm, ?_, missing⟩
  cases own : creation.agent.role with
  | sink => rfl
  | source =>
    obtain ⟨s, found, _⟩ := (Context.roster_publish published).2.2 (role.trans own)
    have gone : hub.population.rosters.get? creation.context = none := by
      rw [get?_rosters, missing]
      rfl
    have released : hub.population.detached.get? creation.context = some c.roster := by
      rcases context?_eq_some there with held | ⟨_, released⟩
      · rw [missing] at held
        cases held
      · exact roster_of_released released
    have absent : c.roster.get? creation.agent.sink = none :=
      bereft creation.arrival (List.mem_map_of_mem mem) own gone c.roster released
    rw [← sink, found] at absent
    cases absent

/-- Whoever joins its context stands in one that is held, or was forsaken. -/
theorem Fit.strays_keep (h : hub.Fit) (bereft : hub.population.Bereft) {creation : Creation}
    {rest : List Creation} (latest : hub.creations = creation :: rest) {a : Agent}
    (same : a.id = creation.agent.id) (role : a.role = creation.agent.role)
    (sink : a.sink = creation.agent.sink) {c c' : Context}
    (there : hub.context? creation.context = some c) (published : c.publish a = .ok c') {x id : Id}
    (strays : (({ hub with creations := rest } : Hub).keep c').Strays x id) :
    hub.Strays x id ∨ hub.Forsakes x id := by
  obtain ⟨d, kept, here⟩ := strays
  have isX : c'.id = creation.context :=
    (Context.roster_publish published).2.1.id.trans (h.tidy.id there)
  rcases context?_eq_some there with held | ⟨missing, released⟩
  · rw [@keep_of_held { hub with creations := rest } _ _ _ held isX] at kept
    exact .inl ⟨d, kept, here⟩
  · rw [@keep_of_missing { hub with creations := rest } _ _ missing isX] at kept
    rcases Table.get?_put_cases kept with ⟨rfl, rfl⟩ | old
    · -- whoever is in that context was there before, or is the one that has just joined
      by_cases isNew : id = a.id
      · rw [isNew]
        exact .inr (forsakes_of_publish bereft (latest ▸ List.mem_cons_self ..) same role sink
          there missing published)
      · refine .inl ⟨c, released, ?_⟩
        obtain ⟨rfl, _⟩ := Context.publish_eq_ok published
        unfold Table.has at here ⊢
        rwa [Table.get?_put, if_neg isNew] at here
    · exact .inl ⟨d, old, here⟩

theorem Ending.strays {t : HubTurn} (h : hub.Fit) (bereft : hub.population.Bereft)
    (ending : hub.Ending t) {x id : Id} (strays : t.hub.Strays x id) :
    hub.Strays x id ∨ hub.Forsakes x id := by
  cases ending with
  | waits request same _ => exact .inl (spares_of_same same strays)
  | fails y origin rest fault comes =>
    subst comes
    have before : hub.Spares { hub with creations := rest } := spares_of_same rfl
    exact .inl (before (spares_conclude _ _ _ _ strays))
  | joins creation rest a latest same role sink comes =>
    subst comes
    have before : hub.Spares { hub with creations := rest } := spares_of_same rfl
    cases ({ hub with creations := rest } : Hub).enlist_cases creation.context a
      creation.origin with
    | fails fault comes =>
      rw [comes] at strays
      exact .inl (before (spares_conclude _ _ _ _ strays))
    | joins c c' there published comes =>
      rw [comes] at strays
      exact h.strays_keep bereft latest same role sink there published
        (spares_conclude _ _ _ _ strays)

/-! ## Whom requests are answered with -/

theorem granted?_of_ne {e : Event} (other : e.kind ≠ .createAgent) (result : Except Fault Unit) :
    (Outcome.handled result e).granted? = none := by
  cases result with
  | error fault => rfl
  | ok _ => exact if_neg other

theorem granted?_conclude_error (hub : Hub) (x : Id) (origin : Origin) (fault : Fault) :
    (hub.conclude x origin (.error fault)).outcome.granted? = none := by
  obtain ⟨outcome, ends, same | ⟨_, closes⟩⟩ := hub.conclude_cases x origin (.error fault)
  · rw [same]
    rcases ends with rfl | ⟨e, rfl⟩ <;> rfl
  · rw [closes]
    rcases ends with rfl | ⟨e, rfl⟩ <;> rfl

theorem granted?_begin (hub : Hub) (c : Context) (msg : ContextMsg) (origin : Origin) :
    (hub.begin c msg origin).outcome.granted? = none := by
  cases hub.begin_cases c msg origin with
  | fails ids fault comes used =>
    rw [comes]
    exact granted?_conclude_error ..
  | waits blank id ids session sessions new minted known comes =>
    rw [comes]
    rfl

theorem granted?_createAgent (hub : Hub) (e : Event) :
    (hub.createAgent e).outcome.granted? = none := by
  cases hub.createAgent_cases e with
  | refused fault comes =>
    rw [comes]
    rfl
  | shut c fresh hub' fault found comes =>
    rw [comes]
    rfl
  | begins msg c c' fresh hub' asked room found received comes =>
    rw [comes]
    exact granted?_begin ..

theorem granted?_deliver (hub : Hub) (c : Context) {e : Event} (other : e.kind ≠ .createAgent) :
    (hub.deliver c e).outcome.granted? = none := by
  cases hub.deliver_cases c e with
  | refused fault refuses comes =>
    rw [comes]
    rfl
  | unclear c' received asks comes =>
    rw [comes]
    rfl
  | begins c' msg received asks asked comes =>
    rw [comes]
    exact granted?_begin ..
  | carries c' received notContext comes =>
    rw [comes]
    exact granted?_of_ne other _

theorem granted?_channelDestroyed (hub : Hub) {e : Event} (other : e.kind ≠ .createAgent) :
    (hub.channelDestroyed e).outcome.granted? = none := by
  cases hub.channelDestroyed_cases e with
  | dropped missing comes =>
    rw [comes]
    exact granted?_of_ne other _
  | refused c fault held refuses comes =>
    rw [comes]
    rfl
  | ends c c' held received comes =>
    rw [comes]
    exact granted?_of_ne other _

/-- No event is answered with an agent at once. -/
theorem granted?_handle (hub : Hub) (e : Event) : (hub.handle e).outcome.granted? = none := by
  cases hub.handle_cases e with
  | configures kind comes =>
    rw [comes]
    exact granted?_of_ne (by rw [kind]; exact EventKind.noConfusion) _
  | full fault kind comes =>
    rw [comes]
    rfl
  | opens c hub' kind opened comes =>
    have other : ({ e with dst := c.id } : Event).kind ≠ .createAgent := by
      show e.kind ≠ _
      rw [kind]
      exact EventKind.noConfusion
    rw [comes]
    exact granted?_of_ne other _
  | creates kind comes =>
    rw [comes]
    exact granted?_createAgent hub e
  | ends kind comes =>
    rw [comes]
    exact granted?_channelDestroyed hub (by rw [kind]; exact EventKind.noConfusion)
  | dropped notAgent notChannel missing comes =>
    rw [comes]
    exact granted?_of_ne notAgent _
  | delivers c notAgent notChannel held comes =>
    rw [comes]
    exact granted?_deliver hub c notAgent

/-- The answer to a request names the agent and its context, and changes nothing any more. -/
theorem granted?_conclude {x id : Id} {origin : Origin} {e : Event} (apt : origin.IsApt)
    (granted : (hub.conclude x origin (.ok id)).outcome.granted? = some e) :
    e.agent? = some id ∧ e.dst = x ∧ (hub.conclude x origin (.ok id)).hub = hub := by
  cases origin with
  | direct => exact apt.elim
  | event asked =>
    obtain ⟨e', concludes, kind⟩ := conclude_of_event hub x asked (.ok id)
    have other : e'.kind ≠ .createAgent := by
      rw [kind, show asked.kind = .contextCreateAgent from apt]
      decide
    rw [concludes, granted?_of_ne other] at granted
    cases granted
  | request asked fresh =>
    obtain ⟨msg, names⟩ := apt
    rw [conclude_request_ok] at granted ⊢
    simp only [Outcome.granted?] at granted
    split at granted
    · obtain rfl := Option.some.inj granted
      exact ⟨Payload.agent?_withContextAgent names id, rfl, rfl⟩
    · cases granted

/-- Whoever a request is answered with stands in a context that is held, or was forsaken. -/
theorem Ending.granted {t : HubTurn} {e : Event} (h : hub.Fit) (bereft : hub.population.Bereft)
    (ending : hub.Ending t) (granted : t.outcome.granted? = some e) :
    ∃ id, e.agent? = some id ∧ (t.hub.holds e.dst id = true ∨ hub.Forsakes e.dst id) := by
  cases ending with
  | waits request _ asks =>
    rw [asks] at granted
    cases granted
  | fails x origin rest fault comes =>
    rw [comes, granted?_conclude_error] at granted
    cases granted
  | joins creation rest a latest same role sink comes =>
    have mem : creation ∈ hub.creations := latest ▸ List.mem_cons_self ..
    cases there : hub.context? creation.context with
    | none =>
      have lost : ({ hub with creations := rest } : Hub).context? creation.context = none := there
      rw [comes, Hub.enlist, lost] at granted
      exact absurd granted (by rw [granted?_conclude_error]; simp)
    | some c =>
      have found : ({ hub with creations := rest } : Hub).context? creation.context = some c := there
      cases published : c.publish a with
      | error fault =>
        simp only [comes, Hub.enlist, found, published, granted?_conclude_error] at granted
        cases granted
      | ok c' =>
        have isX : c'.id = creation.context :=
          (Context.roster_publish published).2.1.id.trans (h.tidy.id there)
        simp only [Hub.enlist, found, published] at comes
        rw [comes] at granted ⊢
        obtain ⟨names, dst, still⟩ := granted?_conclude (h.tidy.apt creation mem) granted
        rw [dst, still]
        refine ⟨a.id, names, ?_⟩
        rcases context?_eq_some there with held | ⟨missing, _⟩
        · refine .inl ?_
          obtain ⟨rfl, _⟩ := Context.publish_eq_ok published
          rw [holds_of_held (@get?_keep { hub with creations := rest } _ _ _ held isX), Table.has,
            Table.get?_put, if_pos rfl]
          rfl
        · exact .inr (forsakes_of_publish bereft mem same role sink there missing published)

theorem Fit.granted_perform (h : hub.Fit) (bereft : hub.population.Bereft) (act : Act) {e : Event}
    (granted : (hub.moment act).granted? = some e) :
    ∃ id, e.agent? = some id ∧
      ((hub.perform act).hub.holds e.dst id = true ∨ hub.Forsakes e.dst id) := by
  unfold Moment.granted? moment at granted
  cases hub.perform_cases act with
  | handles asked =>
    have none : (hub.handle asked).outcome.granted? = some e := granted
    rw [granted?_handle] at none
    cases none
  | unbuilt comes =>
    rw [comes] at granted
    cases granted
  | builds t made comes =>
    rw [comes] at granted ⊢
    exact (ending_built made).granted h bereft granted
  | unanswered answer comes =>
    rw [comes] at granted
    cases granted
  | answers answer t made comes =>
    rw [comes] at granted ⊢
    exact (ending_answered made).granted h bereft granted
  | overhears y id news =>
    have silent : (hub.overhear y id news).outcome = none := by
      unfold Hub.overhear
      split
      · rfl
      · split
        · rfl
        · split <;> rfl
    have none : (hub.overhear y id news).outcome.bind Outcome.granted? = some e := granted
    rw [silent] at none
    cases none
  | lost y asked => cases granted
  | delivers y asked => cases granted
  | registers className cls => cases granted
  | starts config => cases granted
  | closes y => cases granted

/-! ## Who is left behind -/

/-- **What one act does to released contexts**: nobody joins them but a sink that was in the making
there. -/
theorem Fit.strays_perform (h : hub.Fit) (bereft : hub.population.Bereft) (act : Act) {x id : Id}
    (strays : (hub.perform act).hub.Strays x id) : hub.Strays x id ∨ hub.Forsakes x id := by
  cases hub.perform_cases act with
  | handles e => exact .inl (h.spares_handle e strays)
  | lost y e missing comes =>
    rw [comes] at strays
    exact .inl strays
  | delivers y e c there comes =>
    rw [comes] at strays
    exact .inl (h.spares_deliver e there strays)
  | unbuilt comes =>
    rw [comes] at strays
    exact .inl strays
  | builds t made comes =>
    rw [comes] at strays
    exact (ending_built made).strays h bereft strays
  | unanswered answer comes =>
    rw [comes] at strays
    exact .inl strays
  | answers answer t made comes =>
    rw [comes] at strays
    exact (ending_answered made).strays h bereft strays
  | overhears y id news => exact .inl (h.spares_overhear y id news strays)
  | registers className cls => exact .inl strays
  | starts config => exact .inl strays
  | closes y => exact .inl (spares_closeContext hub y strays)

theorem Sound.bereft_perform (h : hub.Sound) (bereft : hub.population.Bereft) {act : Act}
    (spares : (hub.moment act).Spares) : (hub.perform act).hub.population.Bereft := by
  obtain ⟨cs, does⟩ := h.toFit.perform act
  exact h.sound.bereft_run bereft does.run (does.spares h.toFit spares)

/-- Whoever stands in a released context was there from the beginning, or was forsaken. -/
theorem Sound.strays_after (h : hub.Sound) (bereft : hub.population.Bereft) (acts : List Act)
    (spares : ∀ m ∈ hub.journal acts, m.Spares) {x id : Id}
    (strays : (hub.after acts).Strays x id) : hub.Strays x id ∨ hub.Forsaken acts x id := by
  induction acts generalizing hub with
  | nil => exact .inl strays
  | cons act rest ih =>
    have now : hub.moment act ∈ hub.journal (act :: rest) := List.mem_cons_self ..
    have first := spares _ now
    rcases ih (h.perform first) (h.bereft_perform bereft first)
      (fun m mem => spares m (List.mem_cons_of_mem _ mem)) strays with soon | ⟨m, mem, later⟩
    · exact (h.strays_perform bereft act soon).imp_right fun forsakes => ⟨_, now, forsakes⟩
    · exact .inr ⟨m, List.mem_cons_of_mem _ mem, later⟩

theorem Sound.granted_after (h : hub.Sound) (bereft : hub.population.Bereft) (acts : List Act)
    (spares : ∀ m ∈ hub.journal acts, m.Spares) {m : Moment} (mem : m ∈ hub.journal acts)
    {e : Event} (granted : m.granted? = some e) :
    ∃ id, e.agent? = some id ∧ (m.turn.hub.holds e.dst id = true ∨ hub.Forsaken acts e.dst id) := by
  induction acts generalizing hub with
  | nil => cases mem
  | cons act rest ih =>
    have now : hub.moment act ∈ hub.journal (act :: rest) := List.mem_cons_self ..
    have first := spares _ now
    rcases List.mem_cons.1 mem with rfl | later
    · obtain ⟨id, names, stands⟩ := h.granted_perform bereft act granted
      exact ⟨id, names, stands.imp_right fun forsakes => ⟨_, now, forsakes⟩⟩
    · obtain ⟨id, names, stands⟩ := ih (h.perform first) (h.bereft_perform bereft first)
        (fun m mem => spares m (List.mem_cons_of_mem _ mem)) later
      refine ⟨id, names, stands.imp_right ?_⟩
      rintro ⟨n, before, forsakes⟩
      exact ⟨n, List.mem_cons_of_mem _ before, forsakes⟩

/-- **Only forsaken sinks are stranded.** Whatever happens to a hub, unless a live number is met
again: whoever stands in a released
context is a sink that was in the making when the context had been released already. And whoever a
request is answered with stands in the context that the answer names, which the hub holds, or is
such a sink. -/
theorem only_forsaken_sinks_are_stranded {hub : Hub} (fresh : hub.IsFresh) (acts : List Act)
    (spares : ∀ m ∈ hub.journal acts, m.Spares) :
    (∀ x id c, (hub.after acts).detached.get? x = some c → c.agents.has id = true →
      hub.Forsaken acts x id) ∧
    ∀ m ∈ hub.journal acts, ∀ e, m.granted? = some e →
      ∃ id, e.agent? = some id ∧
        (m.turn.hub.holds e.dst id = true ∨ hub.Forsaken acts e.dst id) := by
  have sound := fresh.sound
  have bereft : hub.population.Bereft := by
    intro ar mem
    rw [fresh.arrivals] at mem
    cases mem
  refine ⟨fun x id c kept here => ?_, fun m mem e granted =>
    sound.granted_after bereft acts spares mem granted⟩
  rcases sound.strays_after bereft acts spares ⟨c, kept, here⟩ with ⟨d, before, _⟩ | forsaken
  · rw [fresh.detached] at before
    cases before
  · exact forsaken

/-- So it is when a context is released while the session of its sink is being built. -/
theorem only_forsaken_sinks_are_stranded_after_forsaking :
    (∀ m ∈ loopback.journal Act.forsaking, m.Spares) ∧
    (∀ x id c, (loopback.after Act.forsaking).detached.get? x = some c → c.agents.has id = true →
      loopback.Forsaken Act.forsaking x id) ∧
    ∀ m ∈ loopback.journal Act.forsaking, ∀ e, m.granted? = some e →
      ∃ id, e.agent? = some id ∧
        (m.turn.hub.holds e.dst id = true ∨ loopback.Forsaken Act.forsaking e.dst id) :=
  have spares : ∀ m ∈ loopback.journal Act.forsaking, m.Spares := by decide
  ⟨spares, only_forsaken_sinks_are_stranded isFresh_loopback Act.forsaking spares⟩

/-- **A sink is stranded.** The client is told that its sink was made in a context, while the hub
does not hold that context any more; and the sink stands in the released context from then on. -/
theorem a_sink_is_stranded :
    (∃ m ∈ loopback.journal Act.forsaking, ∃ e, m.granted? = some e ∧ e.dst = 1 ∧
      e.agent? = some 2 ∧ m.turn.hub.contexts.get? 1 = none) ∧
    ∃ c, (loopback.after Act.forsaking).detached.get? 1 = some c ∧ c.agents.has 2 = true := by
  have last : (loopback.after (Act.forsaking.take 3)).moment (Act.grant 7)
      ∈ loopback.journal Act.forsaking :=
    List.mem_cons_of_mem _ (List.mem_cons_of_mem _ (List.mem_cons_of_mem _
      (List.mem_cons_self ..)))
  exact ⟨⟨_, last, _, rfl, rfl, rfl, rfl⟩, _, rfl, rfl⟩

end Hub

end CastHub
