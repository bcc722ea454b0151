import CastHub.Proofs.MediaStatus
/-!
# How far a request for destruction reaches

Asked for the destruction of one agent, a context passes the request on: a source gets it, and so
does a sink that nobody hangs on. A sink with sources is only marked, and it is the sources that get
the request, all that the context has, whichever sink they hang on (`Roster.reached`).

* `Context.destroyAgent_eq`, `Context.get?_destroyAgent`, `Context.calls_destroyAgent` : what comes
  of a request, agent by agent and call by call;
* `Hub.sink_destruction_reaches` : whom the request for a sink's destruction leaves alone, and when
  it stays with the sink and its own sources;
* `Hub.destruction_is_idempotent` : asking a second time changes nothing. Whoever is reached by the
  second request was reached by the first, and is at destruction already.
-/

namespace CastHub

/-! ## Agents -/

namespace Agent

variable {a : Agent} {e : Event}

/-- A request for destruction is looked at, whatever the agent is up to. -/
theorem handle_of_destroy (asks : e.kind.step = .destroy) (a : Agent) :
    a.handle e = a.handleStep e .destroy := by
  have related : ¬ (a.destroying = true ∧ ¬ e.kind.isDestroyRelated = true) := by
    rintro ⟨-, other⟩
    rcases EventKind.step_eq_destroy_iff.1 asks with kind | kind <;>
      exact other (by rw [kind]; rfl)
  unfold handle
  rw [if_neg related]
  rcases EventKind.step_eq_destroy_iff.1 asks with kind | kind <;> rw [kind] <;> rfl

/-- An agent that is at destruction does nothing about it. -/
theorem handle_of_doomed (asks : e.kind.step = .destroy) (doomed : a.step = .destroy) :
    (a.handle e).agent = a ∧ (a.handle e).acts = [] := by
  rw [handle_of_destroy asks]
  unfold handleStep enter
  rw [if_pos doomed]
  -- refused if it has been destroyed, and absorbed if not
  by_cases finished : a.status = .done
  · rw [if_pos ⟨rfl, finished⟩]
    exact ⟨rfl, rfl⟩
  · rw [if_neg fun h => finished h.2]
    exact ⟨rfl, rfl⟩

/-- Any other agent enters destruction, whichever step that interrupts. -/
theorem handle_of_spared (asks : e.kind.step = .destroy) (spared : a.step ≠ .destroy) :
    a.handle e
      = ({ a with step := .destroy, status := .running, destroying := true } : Agent).drive
          (.operate .destroy) := by
  rw [handle_of_destroy asks]
  unfold handleStep enter
  rw [if_neg spared, if_neg fun h => h.1 rfl]
  rfl

theorem step_handle_of_destroy (asks : e.kind.step = .destroy) (a : Agent) :
    (a.handle e).agent.step = .destroy := by
  have doomed : (a.handle e).agent.member.doomed = true := by
    rw [member_handle_of_destroy asks]
    exact a.member.doomed_doom
  exact of_decide_eq_true doomed

/-- The call by which an agent begins its destruction, unless that has begun. -/
def destruction (a : Agent) : List (Session × SessionCall) :=
  if a.step = .destroy then [] else a.session.toList.map (·, .operate .destroy)

/-- **An agent that is asked for destruction calls its session at most once**, and not if it has
been asked before. -/
theorem calls_handle_of_destroy (asks : e.kind.step = .destroy) (a : Agent) (c : Context) :
    calls ((a.handle e).acts.filterMap c.effectOf?) = a.destruction := by
  unfold destruction
  by_cases doomed : a.step = .destroy
  · rw [if_pos doomed, (handle_of_doomed asks doomed).2]
    rfl
  · rw [if_neg doomed, handle_of_spared asks doomed]
    unfold drive
    cases has : a.session with
    | none => rfl
    | some s => exact congrArg ((s, SessionCall.operate .destroy) :: ·) (calls_reports c _)

/-- A sink whose destruction is asked for is to be destroyed, even if others have to go first. -/
def marked (a : Agent) : Agent := if a.role = .sink then { a with destroying := true } else a

theorem marked_of_source (source : a.role = .source) : a.marked = a :=
  if_neg fun isSink => by rw [source] at isSink; cases isSink

theorem marked_of_destroying (destroying : a.destroying = true) : a.marked = a := by
  unfold marked
  split
  · rw [← destroying]
  · rfl

theorem destruction_marked (a : Agent) : a.marked.destruction = a.destruction := by
  unfold marked
  split <;> rfl

end Agent

/-! ## Who is reached -/

namespace Roster

variable {r : Roster} {id : Id} {m : Member}

/-- Who gets the request for the destruction of a member. -/
def reached (r : Roster) (id : Id) : List Id :=
  match r.get? id with
  | none => []
  | some m =>
    match m.role with
    | .source => [id]
    | .sink => if r.hasSourceOf id then r.sources else [id]

theorem reached_of_source (here : r.get? id = some m) (source : m.role = .source) :
    r.reached id = [id] := by
  simp only [reached, here, source]

theorem reached_of_sink (here : r.get? id = some m) (isSink : m.role = .sink) :
    r.reached id = if r.hasSourceOf id then r.sources else [id] := by
  simp only [reached, here, isSink]

theorem sources_people (r : Roster) : r.people.sources = r.sources := by
  unfold sources people Table.mapValues
  rw [List.filter_map, List.map_map]
  rfl

theorem reached_people (r : Roster) (id : Id) : r.people.reached id = r.reached id := by
  unfold reached
  rw [get?_people, hasSourceOf_people, sources_people]
  cases r.get? id <;> rfl

/-- How far a teardown has come does not matter. -/
theorem reached_of_people {r' : Roster} (same : r'.people = r.people) (id : Id) :
    r'.reached id = r.reached id := by
  rw [← reached_people, same, reached_people]

/-- Nobody is reached twice. -/
theorem nodup_reached (sorted : r.Sorted) (id : Id) : (r.reached id).Nodup := by
  have apart : r.sources.Nodup := by
    unfold sources
    refine List.Pairwise.map _ (fun _ _ below => ?_) (List.Pairwise.filter _ sorted)
    exact fun same => Std.lt_irrefl (same ▸ below)
  unfold reached
  split
  · exact List.nodup_nil
  · split
    · exact List.nodup_singleton id
    · split
      · exact apart
      · exact List.nodup_singleton id

/-- Whoever is reached is the one that was named, or a source of the roster. -/
theorem of_mem_reached (sorted : r.Sorted) {k : Id} (mem : k ∈ r.reached id) :
    k = id ∨ (r.hasSourceOf id = true ∧ ∃ n, r.get? k = some n ∧ n.role = .source) := by
  unfold reached at mem
  split at mem
  · cases mem
  · split at mem
    · exact .inl (List.mem_singleton.1 mem)
    · split at mem
      · exact .inr ⟨‹_›, role_of_mem_sources sorted mem⟩
      · exact .inl (List.mem_singleton.1 mem)

end Roster

/-! ## Contexts -/

namespace Context

variable {c : Context}

/-! ### Speaking to several agents -/

theorem agents_tell (c : Context) (id : Id) (act : Agent → AgentTurn) :
    (c.tell id act).context.agents = c.agents.update id fun a => (act a).agent := by
  unfold tell Table.update
  cases c.agents.get? id <;> rfl

theorem get?_tell_of_ne {id k : Id} (other : k ≠ id) (act : Agent → AgentTurn) :
    (c.tell id act).context.agents.get? k = c.agents.get? k := by
  rw [agents_tell, Table.get?_update, if_neg other]

/-- Each of several agents does what it is told, and nobody else does anything. -/
theorem get?_tellAll {ids : List Id} (apart : ids.Nodup) (act : Agent → AgentTurn) (k : Id) :
    (c.tellAll act ids).context.agents.get? k
      = if k ∈ ids then (c.agents.get? k).map fun a => (act a).agent else c.agents.get? k := by
  induction ids generalizing c with
  | nil => exact (if_neg List.not_mem_nil).symm
  | cons id rest ih =>
    obtain ⟨new, apart⟩ := List.nodup_cons.1 apart
    show ((c.tell id act).context.tellAll act rest).context.agents.get? k = _
    rw [ih apart]
    by_cases own : k = id
    · subst own
      rw [if_neg new, if_pos (List.mem_cons_self ..), agents_tell, Table.get?_update, if_pos rfl]
    · simp only [get?_tell_of_ne own, List.mem_cons, own, false_or]

/-- The sessions that are called are those of the agents that are told, in order. -/
theorem calls_tellAll {ids : List Id} (apart : ids.Nodup) {act : Agent → AgentTurn}
    {called : Agent → List (Session × SessionCall)}
    (each : ∀ (d : Context) (a : Agent), calls ((act a).acts.filterMap d.effectOf?) = called a) :
    calls (c.tellAll act ids).effects = (ids.filterMap c.agents.get?).flatMap called := by
  induction ids generalizing c with
  | nil => rfl
  | cons id rest ih =>
    obtain ⟨new, apart⟩ := List.nodup_cons.1 apart
    have later : rest.filterMap (c.tell id act).context.agents.get?
        = rest.filterMap c.agents.get? :=
      List.filterMap_congr fun k mem => get?_tell_of_ne (by rintro rfl; exact new mem) act
    have first : calls (c.tell id act).effects = ((c.agents.get? id).map called).getD [] := by
      unfold tell
      cases c.agents.get? id with
      | none => rfl
      | some a => exact each c a
    show calls ((c.tell id act).effects ++ ((c.tell id act).context.tellAll act rest).effects) = _
    unfold calls at ih first ⊢
    rw [List.filterMap_append, ih apart, later, first, List.filterMap_cons]
    cases c.agents.get? id <;> rfl

/-- Agents that do nothing about what they are told leave the context as it is. -/
theorem tellAll_of_still (sorted : c.agents.Sorted) {ids : List Id} {act : Agent → AgentTurn}
    (still : ∀ id ∈ ids, ∀ a, c.agents.get? id = some a → (act a).agent = a ∧ (act a).acts = []) :
    c.tellAll act ids = { context := c } := by
  induction ids with
  | nil => rfl
  | cons id rest ih =>
    have nothing : (c.tell id act).context = c ∧ (c.tell id act).effects = [] := by
      unfold tell
      cases here : c.agents.get? id with
      | none => exact ⟨rfl, rfl⟩
      | some a =>
        obtain ⟨same, silent⟩ := still id (List.mem_cons_self ..) a here
        simp only [same, silent, Table.put_self sorted here, List.filterMap_nil, and_self]
    unfold tellAll
    simp only [nothing.1, nothing.2]
    rw [ih fun k mem => still k (List.mem_cons_of_mem id mem)]
    rfl

/-! ### Asking for destruction -/

/-- The context in which a sink whose destruction is asked for has been marked. -/
def readied (c : Context) (id : Id) : Context :=
  { c with agents := c.agents.update id Agent.marked }

/-- The agents that get the request for the destruction of one. -/
def reached (c : Context) (id : Id) : List Agent :=
  (c.roster.reached id).filterMap c.agents.get?

theorem get?_readied (c : Context) (id k : Id) : (c.readied id).agents.get? k
    = if k = id then (c.agents.get? k).map Agent.marked else c.agents.get? k :=
  Table.get?_update

theorem sorted_roster (sorted : c.agents.Sorted) : c.roster.Sorted :=
  Table.sorted_mapValues.2 sorted

/-- Marking a sink changes nobody. -/
theorem people_readied (sorted : c.agents.Sorted) (id : Id) :
    (c.readied id).roster.people = c.roster.people := by
  let mark (m : Member) : Member := if m.role = .sink then { m with destroying := true } else m
  have marks : (c.readied id).roster = c.roster.update id mark := by
    refine Table.mapValues_update fun a _ => ?_
    show a.marked.member = if a.role = .sink then _ else _
    unfold Agent.marked
    split <;> rfl
  rw [marks]
  refine Roster.people_update (sorted_roster sorted) fun m => ?_
  show (if m.role = .sink then _ else m : Member).who = m.who
  split <;> rfl

/-- **What comes of a request for destruction**: the sink is marked if it is one, and whoever is
reached is told. -/
theorem destroyAgent_eq (sorted : c.agents.Sorted) {e : Event} {id : Id}
    (named : e.agent? = some id) :
    c.destroyAgent e = (c.readied id).tellAll (·.handle e) (c.roster.reached id) := by
  cases found : c.agents.get? id with
  | none =>
    have nobody : c.roster.reached id = [] := by simp [Roster.reached, found]
    have same : c.readied id = c := by simp only [readied, Table.update, found]
    rw [nobody, same]
    simp only [destroyAgent, named, found]
    rfl
  | some a =>
    have member := member_of_agent found
    cases role : a.role with
    | source =>
      have same : c.readied id = c := by
        simp only [readied, Table.update, found, Agent.marked_of_source role,
          Table.put_self sorted found]
      rw [Roster.reached_of_source member role, same, destroyAgent_of_source named found role]
    | sink =>
      have ready : c.readied id = c.mark id a := by
        simp only [readied, Table.update, found, mark, Agent.marked, role, if_true]
      obtain ⟨b, there, isSink⟩ :
          ∃ b, (c.readied id).agents.get? id = some b ∧ b.role = .sink := by
        rw [get?_readied, if_pos rfl, found]
        exact ⟨_, rfl, by simp only [Agent.marked, role, if_true]⟩
      rw [destroyAgent_of_sink named found role, ← ready, ← hasSourceOf_roster, ← sources_roster,
        ← Roster.reached_of_sink (member_of_agent there) isSink,
        Roster.reached_of_people (people_readied sorted id)]

section Destruction

variable {e : Event} {id : Id}

/-- What becomes of each agent. -/
theorem get?_destroyAgent (sorted : c.agents.Sorted) (named : e.agent? = some id) (k : Id) :
    (c.destroyAgent e).context.agents.get? k
      = if k ∈ c.roster.reached id
        then ((c.readied id).agents.get? k).map fun a => (a.handle e).agent
        else (c.readied id).agents.get? k := by
  rw [destroyAgent_eq sorted named]
  exact get?_tellAll (Roster.nodup_reached (sorted_roster sorted) id) _ k

/-- Which sessions are called: those of the agents that are reached and not at destruction yet. -/
theorem calls_destroyAgent (sorted : c.agents.Sorted) (named : e.agent? = some id)
    (asks : e.kind.step = .destroy) :
    calls (c.destroyAgent e).effects = (c.reached id).flatMap Agent.destruction := by
  rw [destroyAgent_eq sorted named, calls_tellAll (Roster.nodup_reached (sorted_roster sorted) id)
    fun d a => Agent.calls_handle_of_destroy asks a d]
  unfold reached
  rw [List.filterMap_eq_flatMap_toList, List.filterMap_eq_flatMap_toList, List.flatMap_assoc,
    List.flatMap_assoc]
  -- whether the sink has been marked makes no difference to its session
  refine congrArg (List.flatMap · (c.roster.reached id)) (funext fun k => ?_)
  rw [get?_readied]
  split
  · cases c.agents.get? k with
    | none => rfl
    | some a => exact congrArg (· ++ []) a.destruction_marked
  · rfl

/-- Nobody is taken in or let go, and nobody becomes somebody else. -/
theorem people_destroyAgent (sorted : c.agents.Sorted) (named : e.agent? = some id)
    (asks : e.kind.step = .destroy) :
    (c.destroyAgent e).context.roster.people = c.roster.people := by
  rw [roster_destroyAgent asks, named]
  exact Roster.people_tearDown (sorted_roster sorted) id

/-- The agents that are reached stand in the context in the order in which they get the request. -/
theorem reached_sublist (sorted : c.agents.Sorted) (id : Id) :
    (c.reached id).Sublist (c.agents.map (·.2)) := by
  have sources : c.sources.filterMap c.agents.get?
      = (c.agents.filter (·.2.role = .source)).map (·.2) := by
    unfold Context.sources
    rw [List.filterMap_map, ← List.filterMap_eq_map]
    refine List.filterMap_congr fun entry mem => ?_
    exact Table.get?_of_mem sorted (List.mem_of_mem_filter mem)
  have alone : ([id].filterMap c.agents.get?).Sublist (c.agents.map (·.2)) := by
    cases here : c.agents.get? id with
    | none =>
      rw [List.filterMap_cons_none here]
      exact List.nil_sublist _
    | some a =>
      rw [List.filterMap_cons_some here]
      exact List.singleton_sublist.2 (List.mem_map_of_mem (Table.mem_of_get? here))
  unfold reached Roster.reached
  split
  · exact List.nil_sublist _
  · split
    · exact alone
    · split
      · rw [sources_roster, sources]
        exact List.Sublist.map _ List.filter_sublist
      · exact alone

end Destruction

/-! ### Whom an operation leaves alone -/

/-- What is done in a context touches only `those` of its agents, `agents'` being all of them
afterwards: everybody else is as before, and the sessions that are called belong to some of `those`,
one call to each. (The calls come in the rising order in which `Context.sources` lists the agents. A
teardown promises no order.) -/
structure OnlyTouches (agents agents' : Table Id Agent) (effects : List Effect)
    (those : Agent → Prop) : Prop where
  others : ∀ {id a}, agents.get? id = some a → ¬ those a → agents'.get? id = some a
  called : ∃ touched : List Agent, touched.Sublist (agents.map (·.2)) ∧ (∀ a ∈ touched, those a) ∧
    (calls effects).map (·.1) = touched.filterMap (·.session)

/-- Nothing is done. -/
theorem onlyTouches_nothing (agents : Table Id Agent) (those : Agent → Prop) :
    OnlyTouches agents agents [] those where
  others here _ := here
  called := ⟨[], List.nil_sublist _, fun _ mem => absurd mem List.not_mem_nil, rfl⟩

/-- A request for destruction touches the agent that it names, and whoever is reached and not at
destruction yet. -/
theorem onlyTouches_destroyAgent (sorted : c.agents.Sorted) {e : Event} {id : Id}
    (named : e.agent? = some id) (asks : e.kind.step = .destroy) {those : Agent → Prop}
    (self : ∀ a, c.agents.get? id = some a → those a)
    (others : ∀ a ∈ c.reached id, a.step ≠ .destroy → those a) :
    OnlyTouches c.agents (c.destroyAgent e).context.agents (c.destroyAgent e).effects those where
  others := by
    intro k a here spared
    have other : k ≠ id := by
      rintro rfl
      exact spared (self a here)
    rw [get?_destroyAgent sorted named, get?_readied, if_neg other, here]
    split
    · rename_i mem
      have doomed : a.step = .destroy := by
        by_contra alive
        exact spared (others a (List.mem_filterMap.2 ⟨k, mem, here⟩) alive)
      exact congrArg some (Agent.handle_of_doomed asks doomed).1
    · rfl
  called := by
    refine ⟨(c.reached id).filter (·.step ≠ .destroy), ?_, ?_, ?_⟩
    · exact List.filter_sublist.trans (reached_sublist sorted id)
    · intro a mem
      obtain ⟨mem, alive⟩ := List.mem_filter.1 mem
      exact others a mem (of_decide_eq_true alive)
    · rw [calls_destroyAgent sorted named asks]
      generalize c.reached id = agents
      induction agents with
      | nil => rfl
      | cons a rest ih =>
        rw [List.flatMap_cons, List.map_append, ih, List.filter_cons]
        unfold Agent.destruction
        by_cases doomed : a.step = .destroy
        · simp [doomed]
        · cases has : a.session <;> simp [doomed, has]

section Sinks

variable {e : Event} {sink : Id} {s : Agent}

/-- Whoever is reached is the agent that is named, or a source of the context. -/
theorem of_mem_reached (sorted : c.agents.Sorted) (keyed : c.Keyed) {a : Agent}
    (mem : a ∈ c.reached sink) :
    a.id = sink ∨ (c.hasSourceOf sink = true ∧ a.role = .source ∧ c.agents.get? a.id = some a) := by
  obtain ⟨k, mem, found⟩ := List.mem_filterMap.1 mem
  obtain rfl := keyed found
  rcases Roster.of_mem_reached (sorted_roster sorted) mem with own | ⟨waits, n, has, source⟩
  · exact .inl own
  · rw [member_of_agent found] at has
    obtain rfl := Option.some.inj has
    rw [hasSourceOf_roster] at waits
    exact .inr ⟨waits, source, found⟩

/-- If a sink has sources, then every source of the context gets the request. -/
theorem get?_destroyAgent_of_source (sorted : c.agents.Sorted) (named : e.agent? = some sink)
    (here : c.agents.get? sink = some s) (isSink : s.role = .sink)
    (waits : c.hasSourceOf sink = true) {id : Id} {a : Agent} (found : c.agents.get? id = some a)
    (source : a.role = .source) :
    (c.destroyAgent e).context.agents.get? id = some (a.handle e).agent := by
  have mem : id ∈ c.roster.reached sink := by
    rw [Roster.reached_of_sink (member_of_agent here) isSink, hasSourceOf_roster, if_pos waits]
    exact Roster.mem_sources (member_of_agent found) source
  have other : id ≠ sink := by
    rintro rfl
    obtain rfl := Option.some.inj (here.symm.trans found)
    rw [isSink] at source
    cases source
  rw [get?_destroyAgent sorted named, if_pos mem, get?_readied, if_neg other, found]
  rfl

/-- What is touched of a context that sees to the request for a sink's destruction: the sink, and
the sources of the context if it has any itself. -/
theorem onlyTouches_sources (sorted : c.agents.Sorted) (keyed : c.Keyed)
    (named : e.agent? = some sink) (asks : e.kind.step = .destroy) :
    OnlyTouches c.agents (c.destroyAgent e).context.agents (c.destroyAgent e).effects
      (fun a => a.id = sink ∨ (c.hasSourceOf sink = true ∧ a.role = .source)) := by
  refine onlyTouches_destroyAgent sorted named asks (fun a here => .inl (keyed here)) ?_
  intro a mem _
  exact (of_mem_reached sorted keyed mem).imp_right fun h => ⟨h.1, h.2.1⟩

/-- When no more than the sink and its own sources are touched. -/
theorem onlyTouches_tree_iff (sorted : c.agents.Sorted) (keyed : c.Keyed)
    (named : e.agent? = some sink) (asks : e.kind.step = .destroy)
    (here : c.agents.get? sink = some s) (isSink : s.role = .sink) :
    OnlyTouches c.agents (c.destroyAgent e).context.agents (c.destroyAgent e).effects
        (fun a => a.id = sink ∨ isSourceOf sink a) ↔
      c.hasSourceOf sink = false ∨ ∀ id a, c.agents.get? id = some a → a.role = .source →
        a.sink = sink ∨ a.step = .destroy := by
  constructor
  · intro confined
    rw [or_iff_not_imp_left, Bool.not_eq_false]
    intro waits id a found source
    by_contra apart
    obtain ⟨elsewhere, alive⟩ := not_or.1 apart
    -- a source of another sink is reached, and so it is not as before
    have stays := confined.others found (by
      rintro (own | own)
      · rw [keyed found] at own
        obtain rfl := own
        obtain rfl := Option.some.inj (here.symm.trans found)
        rw [isSink] at source
        cases source
      · simp [isSourceOf, elsewhere] at own)
    rw [get?_destroyAgent_of_source sorted named here isSink waits found source] at stays
    have same : (a.handle e).agent = a := Option.some.inj stays
    exact alive (same ▸ Agent.step_handle_of_destroy asks a)
  · intro h
    refine onlyTouches_destroyAgent sorted named asks (fun a here => .inl (keyed here)) ?_
    intro a mem alive
    refine (of_mem_reached sorted keyed mem).imp_right ?_
    rintro ⟨waits, source, found⟩
    rcases h with free | own
    · rw [free] at waits
      cases waits
    · have hangs := (own a.id a found source).resolve_right alive
      simp [isSourceOf, source, hangs]

end Sinks

/-! ### Asking again -/

/-- A context that has noted who asks notes nothing new if the same client asks again. -/
theorem noting_of_noted {d : Context} {e : Event}
    (noted : d.interaction = (c.noting e).interaction) : d.noting e = d := by
  have same : e.requester?.getD d.interaction = d.interaction := by
    rw [noted]
    unfold noting
    cases e.requester? <;> rfl
  unfold noting
  rw [same]

/-- **The second request finds everybody as it wants them**: the sink is marked, and whoever is
reached is at destruction. -/
theorem destroyAgent_again (sorted : c.agents.Sorted) {e : Event} {id : Id}
    (named : e.agent? = some id) (asks : e.kind.step = .destroy) :
    (c.destroyAgent e).context.destroyAgent e = { context := (c.destroyAgent e).context } := by
  have people := people_destroyAgent sorted named asks
  have torn : (c.destroyAgent e).context.roster = c.roster.tearDown id := by
    rw [roster_destroyAgent asks, named]
    rfl
  have states := get?_destroyAgent sorted named
  generalize (c.destroyAgent e).context = d at people torn states ⊢
  have sorted' : d.agents.Sorted :=
    Table.sorted_mapValues.1 (Roster.sorted_of_people (sorted_roster sorted) people)
  have ready : d.readied id = d := by
    unfold readied Table.update
    cases there : d.agents.get? id with
    | none => rfl
    | some b =>
      have same : b.marked = b := by
        cases role : b.role with
        | source => exact Agent.marked_of_source role
        | sink =>
          obtain ⟨m, here, who⟩ := Roster.exists_of_people people (member_of_agent there)
          have isSink : m.role = .sink := (congrArg Member.role who).trans role
          obtain ⟨n, found, destroying⟩ := Roster.destroying_tearDown here isSink
          rw [← torn, member_of_agent there] at found
          obtain rfl := Option.some.inj found
          exact Agent.marked_of_destroying destroying
      simp only [same, Table.put_self sorted' there]
  rw [destroyAgent_eq sorted' named, ready, Roster.reached_of_people people]
  refine tellAll_of_still sorted' fun k mem b there => ?_
  rw [states, if_pos mem] at there
  obtain ⟨a, -, rfl⟩ := Option.map_eq_some_iff.1 there
  exact Agent.handle_of_doomed asks (Agent.step_handle_of_destroy asks a)

end Context

/-- In the context of a sharing session a second sink is made, and a source of it. -/
def Act.forking : List Act :=
  sharing ++ [request .sink 1 .unassigned, built, grant 8, request .source 1 4, built]

/-! ## The hub -/

namespace Hub

variable {hub : Hub} {x : Id} {c : Context} {e : Event}

/-- A context that has been released refuses every event. -/
theorem deliver_of_released (released : c.destroying = true) (e : Event) :
    hub.deliver c e = { hub, outcome := .handled (.error .destroying) e } := by
  unfold deliver Context.receive
  rw [if_pos released]

/-- A context that has not been released sees to a request for destruction. -/
theorem deliver_of_destroy (stands : c.destroying = false) (asks : e.kind.step = .destroy) :
    hub.deliver c e =
      { hub := hub.keep ((c.noting e).destroyAgent e).context
        effects := ((c.noting e).destroyAgent e).effects
        outcome := .handled ((c.noting e).destroyAgent e).result e } := by
  have received : c.receive e = .ok (c.noting e) := Context.receive_eq_ok_iff.2 ⟨stands, rfl⟩
  have carried : (c.noting e).carryOut e = (c.noting e).destroyAgent e := by
    unfold Context.carryOut
    rcases EventKind.step_eq_destroy_iff.1 asks with kind | kind <;> rw [kind]
  rw [← carried]
  unfold deliver
  rw [received]
  rcases EventKind.step_eq_destroy_iff.1 asks with kind | kind <;> rw [kind]

/-- What a request for destruction leaves of a context that has not been released. -/
theorem context?_of_destroy (tidy : hub.Tidy) (there : hub.context? x = some c)
    (stands : c.destroying = false) (asks : e.kind.step = .destroy) :
    (hub.perform (.contextEvent x e)).hub.context? x
      = some ((c.noting e).destroyAgent e).context := by
  have same : ((c.noting e).destroyAgent e).context.id = x := by
    have own : c.id = x := tidy.id there
    exact ((c.noting e).remains_destroyAgent e).id.trans own
  rw [perform_contextEvent there, deliver_of_destroy stands asks]
  show (hub.keep _).context? x = _
  rw [context?_keep there same, if_pos rfl]

/-! ### Sinks -/

/-- **How far the request for a sink's destruction reaches**: the sink is touched, and if it has
sources then all sources of the context are, none of which escapes. So what is touched is the sink
with its own sources exactly if nothing is done at all, the sink has no sources, or the sources of
other sinks are at destruction anyway. -/
theorem sink_destruction_reaches {hub : Hub} (fresh : hub.IsFresh) (acts : List Act) {x : Id}
    {c : Context} (there : (hub.after acts).context? x = some c) {e : Event}
    (asks : e.kind = .contextDestroyAgent ∨ e.kind = .destroyAgent) {sink : Id} {s : Agent}
    (named : e.agent? = some sink) (here : c.agents.get? sink = some s) (isSink : s.role = .sink) :
    ∃ c', ((hub.after acts).perform (.contextEvent x e)).hub.context? x = some c' ∧
      Context.OnlyTouches c.agents c'.agents ((hub.after acts).perform (.contextEvent x e)).effects
        (fun a => a.id = sink ∨ (c.hasSourceOf sink = true ∧ a.role = .source)) ∧
      (c.destroying = false → c.hasSourceOf sink = true → ∀ id a, c.agents.get? id = some a →
        a.role = .source → ∃ b, c'.agents.get? id = some b ∧ b.step = .destroy) ∧
      (Context.OnlyTouches c.agents c'.agents ((hub.after acts).perform (.contextEvent x e)).effects
          (fun a => a.id = sink ∨ Context.isSourceOf sink a) ↔
        c.destroying = true ∨ c.hasSourceOf sink = false ∨
          ∀ id a, c.agents.get? id = some a → a.role = .source →
            a.sink = sink ∨ a.step = .destroy) := by
  have fit := fresh.fit_after acts
  have asks : e.kind.step = .destroy := EventKind.step_eq_destroy_iff.2 asks
  have keyed : c.Keyed := fit.keyed there
  cases stands : c.destroying with
  | true =>
    rw [perform_contextEvent there, deliver_of_released stands]
    exact ⟨c, there, Context.onlyTouches_nothing c.agents _, fun alive => Bool.noConfusion alive,
      fun _ => .inl rfl, fun _ => Context.onlyTouches_nothing c.agents _⟩
  | false =>
    have sorted : c.agents.Sorted := fit.agents_sorted (fit.held_of_stands there stands)
    have effects : ((hub.after acts).perform (.contextEvent x e)).effects
        = ((c.noting e).destroyAgent e).effects := by
      rw [perform_contextEvent there, deliver_of_destroy stands asks]
      rfl
    rw [effects]
    refine ⟨_, context?_of_destroy fit.tidy there stands asks, ?_, ?_, ?_⟩
    · exact Context.onlyTouches_sources (c := c.noting e) sorted keyed named asks
    · intro _ waits id a found source
      exact ⟨_, Context.get?_destroyAgent_of_source (c := c.noting e) sorted named here isSink
        waits found source, Agent.step_handle_of_destroy asks a⟩
    · rw [or_iff_right Bool.false_ne_true]
      exact Context.onlyTouches_tree_iff (c := c.noting e) sorted keyed named asks here isSink

/-- In a sharing session there is one sink only, so its tree is all there is. -/
theorem sink_destruction_reaches_its_source : ∃ e c c' b, Act.say .destroyAgent 1 2 = .event e ∧
    (loopback.after Act.sharing).context? 1 = some c ∧
    ((loopback.after Act.sharing).perform (.contextEvent 1 e)).hub.context? 1 = some c' ∧
    Context.OnlyTouches c.agents c'.agents
      ((loopback.after Act.sharing).perform (.contextEvent 1 e)).effects
      (fun a => a.id = 2 ∨ Context.isSourceOf 2 a) ∧
    c'.agents.get? 3 = some b ∧ b.step = .destroy := by
  obtain ⟨e, isE, asks, named⟩ : ∃ e, Act.say .destroyAgent 1 2 = .event e ∧
      e.kind = .destroyAgent ∧ e.agent? = some 2 := ⟨_, rfl, rfl, rfl⟩
  obtain ⟨c, s, a, there, sink, isSink, third, source, stands, waits, all⟩ :
      ∃ c s a, (loopback.after Act.sharing).context? 1 = some c ∧ c.agents.get? 2 = some s ∧
        s.role = .sink ∧ c.agents.get? 3 = some a ∧ a.role = .source ∧ c.destroying = false ∧
        c.hasSourceOf 2 = true ∧
        (c.agents.all fun entry => entry.2.role = .sink || entry.2.sink = 2) = true :=
    ⟨_, _, _, rfl, rfl, rfl, rfl, rfl, rfl, rfl, rfl⟩
  obtain ⟨c', later, -, reaches, tree⟩ :=
    sink_destruction_reaches isFresh_loopback Act.sharing there (.inr asks) named sink isSink
  obtain ⟨b, found, doomed⟩ := reaches stands waits 3 a third source
  refine ⟨e, c, c', b, isE, there, later, tree.2 (.inr (.inr ?_)), found, doomed⟩
  intro id d here isSource
  have either := List.all_eq_true.1 all _ (Table.mem_of_get? here)
  rw [isSource] at either
  exact .inl (by simpa using either)

/-- The request for the destruction of a sink does not leave the sources of other sinks alone: the
one that hangs on the second sink is at destruction afterwards. -/
theorem a_sink_takes_other_sources_along : ¬ ∀ (acts : List Act) (x : Id) (c c' : Context)
    (e : Event) (sink : Id) (s : Agent), (loopback.after acts).context? x = some c →
    (e.kind = .contextDestroyAgent ∨ e.kind = .destroyAgent) → e.agent? = some sink →
    c.agents.get? sink = some s → s.role = .sink →
    ((loopback.after acts).perform (.contextEvent x e)).hub.context? x = some c' →
    Context.OnlyTouches c.agents c'.agents
      ((loopback.after acts).perform (.contextEvent x e)).effects
      (fun a => a.id = sink ∨ Context.isSourceOf sink a) := by
  intro stays
  obtain ⟨e, isE, asks, named⟩ : ∃ e, Act.say .destroyAgent 1 2 = .event e ∧
      e.kind = .destroyAgent ∧ e.agent? = some 2 := ⟨_, rfl, rfl, rfl⟩
  obtain ⟨c, s, a, there, sink, isSink, fifth, own, elsewhere, idle⟩ :
      ∃ c s a, (loopback.after Act.forking).context? 1 = some c ∧ c.agents.get? 2 = some s ∧
        s.role = .sink ∧ c.agents.get? 5 = some a ∧ a.id = 5 ∧ a.sink = 4 ∧ a.step = .idle :=
    ⟨_, _, _, rfl, rfl, rfl, rfl, rfl, rfl, rfl⟩
  obtain ⟨c', b, later, found, doomed⟩ :
      ∃ c' b, ((loopback.after Act.forking).perform (.contextEvent 1 e)).hub.context? 1 = some c' ∧
        c'.agents.get? 5 = some b ∧ b.step = .destroy := by
    cases isE
    exact ⟨_, _, rfl, rfl, rfl⟩
  have confined := stays Act.forking 1 c c' e 2 s there (.inr asks) named sink isSink later
  have same := confined.others fifth (by simp [own, elsewhere, Context.isSourceOf])
  obtain rfl := Option.some.inj (found.symm.trans same)
  rw [idle] at doomed
  cases doomed

/-! ### A second request -/

/-- A context that is written back as it is makes no difference. -/
theorem keep_keep (held : hub.contexts.get? x = some c) {d : Context} (same : d.id = x) :
    (hub.keep d).keep d = hub.keep d := by
  rw [keep_of_held (get?_keep held same) same, keep_of_held held same]
  simp only [Table.put_put]

/-- **Asking for the destruction of an agent a second time changes nothing**, whoever it is, if
anybody: the request is answered as before, nobody's session is called, nothing is posted, and
everything is as the first request left it. -/
theorem destruction_is_idempotent {hub : Hub} (fresh : hub.IsFresh) (acts : List Act) {x : Id}
    {c : Context} (there : (hub.after acts).context? x = some c) (stands : c.destroying = false)
    {e : Event} (asks : e.kind = .contextDestroyAgent ∨ e.kind = .destroyAgent) {id : Id}
    (named : e.agent? = some id) :
    ((hub.after acts).perform (.contextEvent x e)).outcome = some (.handled (.ok ()) e) ∧
    ((hub.after acts).perform (.contextEvent x e)).hub.perform (.contextEvent x e)
      = { hub := ((hub.after acts).perform (.contextEvent x e)).hub
          outcome := some (.handled (.ok ()) e) } := by
  have fit := fresh.fit_after acts
  have asks : e.kind.step = .destroy := EventKind.step_eq_destroy_iff.2 asks
  have held := fit.held_of_stands there stands
  have sorted : (c.noting e).agents.Sorted := fit.agents_sorted (c := c) held
  have keyed : (c.noting e).Keyed := fit.keyed (c := c) there
  have isX : (c.noting e).id = x := fit.tidy.id (c := c) there
  have later := context?_of_destroy fit.tidy there stands asks
  have first := perform_contextEvent there e
  rw [deliver_of_destroy stands asks] at first
  have done : ((c.noting e).destroyAgent e).result = .ok () := by
    rw [Context.destroyAgent_eq sorted named]
    exact Context.result_tellAll
  have again := Context.destroyAgent_again sorted named asks
  have noted := Context.noting_of_noted (Context.talks_destroyAgent keyed e).interaction
  have remains := (c.noting e).remains_destroyAgent e
  constructor
  · rw [first]
    exact congrArg (fun result => some (Outcome.handled result e)) done
  · rw [perform_contextEvent later, deliver_of_destroy (remains.destroying.trans stands) asks,
      noted, again, first]
    simp only [HubTurn.done, keep_keep held (remains.id.trans isX)]

/-- In a sharing session the sink is told to go, and told again. Its source has done what it was
asked for by then, and is not asked again. -/
theorem destruction_is_idempotent_in_sharing : ∃ e t, Act.say .destroyAgent 1 2 = .event e ∧
    (loopback.after Act.sharing).perform (.contextEvent 1 e) = t ∧ (calls t.effects).length = 1 ∧
    (t.hub.agent? 1 3).map (fun a => (a.step, a.status)) = some (.destroy, .done) ∧
    t.hub.perform (.contextEvent 1 e)
      = { hub := t.hub, outcome := some (.handled (.ok ()) e) } := by
  obtain ⟨e, isE, asks, named⟩ : ∃ e, Act.say .destroyAgent 1 2 = .event e ∧
      e.kind = .destroyAgent ∧ e.agent? = some 2 := ⟨_, rfl, rfl, rfl⟩
  obtain ⟨c, there, stands⟩ : ∃ c, (loopback.after Act.sharing).context? 1 = some c ∧
      c.destroying = false := ⟨_, rfl, rfl⟩
  have again := (destruction_is_idempotent isFresh_loopback Act.sharing there stands (.inr asks)
    named).2
  refine ⟨e, _, isE, rfl, ?_, ?_, again⟩
  · cases isE
    rfl
  · cases isE
    rfl

end Hub

end CastHub
