import CastHub.Context
import CastHub.Proofs.Roster
/-!
# Contexts and their rosters

What the operations of a context come to for its roster (`Context.roster`). Each of them does to the
agents what `Roster` does to the members:

* `roster_destroyAgent` : beginning a teardown is `Roster.tearDown`;
* `roster_agentDestroyed` : ending one is `Roster.leave`;
* `roster_distribute` : passing an event on changes nothing;
* `roster_publish` : taking a new agent in is `Table.put`.
-/

namespace CastHub

namespace Context

/-- The agents of a context as they are known from the outside. -/
def roster (c : Context) : Roster := c.agents.mapValues Agent.member

@[simp] theorem get?_roster (c : Context) (id : Id) :
    c.roster.get? id = (c.agents.get? id).map Agent.member := Table.get?_mapValues ..

theorem member_of_agent {c : Context} {id : Id} {a : Agent} (here : c.agents.get? id = some a) :
    c.roster.get? id = some a.member := by
  rw [get?_roster, here]
  rfl

theorem agent_of_member {c : Context} {id : Id} {m : Member} (here : c.roster.get? id = some m) :
    ∃ a, c.agents.get? id = some a ∧ a.member = m := by
  rw [get?_roster] at here
  exact Option.map_eq_some_iff.1 here

theorem hasSourceOf_roster (c : Context) (sink : Id) :
    c.roster.hasSourceOf sink = c.hasSourceOf sink := by
  unfold Roster.hasSourceOf roster Table.mapValues
  rw [List.any_map]
  rfl

theorem sources_roster (c : Context) : c.roster.sources = c.sources := by
  unfold Roster.sources roster Table.mapValues sources
  rw [List.filter_map, List.map_map]
  rfl

theorem roster_eq_nil {c : Context} : c.roster = [] ↔ c.isEmpty = true := by
  unfold roster Table.mapValues isEmpty
  rw [List.map_eq_nil_iff, List.isEmpty_iff]

/-! ## What stays -/

/-- A context remains the same one: it keeps its identity, and is released if it was. -/
structure Remains (c c' : Context) : Prop where
  id : c'.id = c.id
  destroying : c'.destroying = c.destroying

theorem Remains.refl (c : Context) : c.Remains c := ⟨rfl, rfl⟩

theorem Remains.trans {a b c : Context} (h : a.Remains b) (h' : b.Remains c) : a.Remains c :=
  ⟨h'.id.trans h.id, h'.destroying.trans h.destroying⟩

theorem remains_tell (c : Context) (id : Id) (act : Agent → AgentTurn) :
    c.Remains (c.tell id act).context := by
  unfold tell
  split
  · exact .refl c
  · exact ⟨rfl, rfl⟩

theorem remains_tellAll (c : Context) (ids : List Id) (act : Agent → AgentTurn) :
    c.Remains (c.tellAll act ids).context := by
  induction ids generalizing c with
  | nil => exact .refl c
  | cons id rest ih => exact (remains_tell c id act).trans (ih _)

theorem remains_settleSink (c : Context) (sink : Id) :
    c.Remains (c.settleSink sink).context := by
  unfold settleSink
  split
  · exact .refl c
  · split
    · exact remains_tellAll ..
    · exact .refl c

/-- The context in which a sink has been marked for destruction. -/
def mark (c : Context) (id : Id) (a : Agent) : Context :=
  { c with agents := c.agents.put id { a with destroying := true } }

theorem remains_destroyAgent (c : Context) (e : Event) :
    c.Remains (c.destroyAgent e).context := by
  unfold destroyAgent
  split
  · exact .refl c
  · split
    · exact .refl c
    · split
      · exact remains_tellAll ..
      · exact Remains.trans (b := c.mark _ _) ⟨rfl, rfl⟩ (remains_tellAll ..)

theorem remains_agentDestroyed (c : Context) (e : Event) :
    c.Remains (c.agentDestroyed e).context := by
  unfold agentDestroyed
  split
  · exact .refl c
  · split
    · exact .refl c
    · split
      · exact .refl c
      · rename_i id _ _ a _ _
        cases role : a.role with
        | sink => exact ⟨rfl, rfl⟩
        | source =>
          obtain ⟨sameId, destroying⟩ := remains_settleSink (c.retire id a) a.sink
          exact ⟨sameId, destroying⟩

theorem remains_distribute (c : Context) (e : Event) : c.Remains (c.distribute e).context := by
  unfold distribute
  split
  · exact .refl c
  · exact remains_tell ..

theorem remains_carryOut (c : Context) (e : Event) : c.Remains (c.carryOut e).context := by
  unfold carryOut
  split
  · exact c.remains_destroyAgent e
  · exact c.remains_destroyAgent e
  · exact c.remains_agentDestroyed e
  · exact c.remains_distribute e

theorem remains_tellRetired (c : Context) (id : Id) (heard : Bool) (act : Agent → AgentTurn) :
    c.Remains (c.tellRetired id heard act).context := by
  unfold tellRetired
  split
  · exact .refl c
  · exact ⟨rfl, rfl⟩

/-! ## Speaking to agents -/

theorem roster_tell {c : Context} {id : Id} {act : Agent → AgentTurn} {f : Member → Member}
    (h : ∀ a, (act a).agent.member = f a.member) :
    (c.tell id act).context.roster = c.roster.update id f := by
  unfold tell Table.update
  rw [get?_roster]
  cases found : c.agents.get? id with
  | none => rfl
  | some a =>
    show Table.mapValues Agent.member (c.agents.put id (act a).agent) = _
    rw [Table.mapValues_put, h]
    rfl

/-- Agents that remain who they are leave the roster as it is. -/
theorem roster_tell_of_same {c : Context} {id : Id} {act : Agent → AgentTurn}
    (sorted : c.roster.Sorted) (h : ∀ a, (act a).agent.member = a.member) :
    (c.tell id act).context.roster = c.roster := by
  rw [roster_tell (f := fun m => m) h]
  unfold Table.update
  cases found : c.roster.get? id with
  | none => rfl
  | some m => exact Table.put_self sorted found

/-- Agents that have left are not on the roster. -/
theorem roster_tellRetired (c : Context) (id : Id) (heard : Bool) (act : Agent → AgentTurn) :
    (c.tellRetired id heard act).context.roster = c.roster := by
  unfold tellRetired
  split <;> rfl

theorem roster_tellAll {c : Context} {ids : List Id} {act : Agent → AgentTurn}
    (h : ∀ a, (act a).agent.member = a.member.doom) :
    (c.tellAll act ids).context.roster = c.roster.doomAll ids := by
  induction ids generalizing c with
  | nil => rfl
  | cons id rest ih =>
    show ((c.tell id act).context.tellAll act rest).context.roster = _
    rw [ih, roster_tell h]
    rfl

/-! ## Unmaking agents -/

theorem destroyAgent_of_source {c : Context} {e : Event} {id : Id} {a : Agent}
    (named : e.agent? = some id) (found : c.agents.get? id = some a) (source : a.role = .source) :
    c.destroyAgent e = c.tellAll (·.handle e) [id] := by
  simp only [destroyAgent, named, found]
  split
  · rfl
  · rename_i isSink
    rw [source] at isSink
    cases isSink

theorem destroyAgent_of_sink {c : Context} {e : Event} {id : Id} {a : Agent}
    (named : e.agent? = some id) (found : c.agents.get? id = some a) (isSink : a.role = .sink) :
    c.destroyAgent e = (c.mark id a).tellAll (·.handle e)
      (if (c.mark id a).hasSourceOf id then (c.mark id a).sources else [id]) := by
  simp only [destroyAgent, named, found]
  split
  · rename_i source
    rw [isSink] at source
    cases source
  · rfl

theorem roster_destroyAgent {c : Context} {e : Event} (asks : e.kind.step = .destroy) :
    (c.destroyAgent e).context.roster
      = (e.agent?.map (c.roster.tearDown ·)).getD c.roster := by
  have dooms := Agent.member_handle_of_destroy asks
  cases named : e.agent? with
  | none => simp only [destroyAgent, named]; rfl
  | some id =>
    show _ = c.roster.tearDown id
    cases found : c.agents.get? id with
    | none => simp [destroyAgent, Roster.tearDown, named, found]
    | some a =>
      have foundMember := member_of_agent found
      cases role : a.role with
      | source =>
        have memberRole : a.member.role = .source := role
        rw [destroyAgent_of_source named found role, roster_tellAll dooms]
        simp only [Roster.tearDown, foundMember, memberRole]
      | sink =>
        have memberRole : a.member.role = .sink := role
        -- the sink is marked first, which changes neither its sources nor anybody else's
        have marked : (c.mark id a).roster = c.roster.mark id := by
          unfold Roster.mark Table.update
          rw [foundMember]
          exact Table.mapValues_put ..
        rw [destroyAgent_of_sink named found role, roster_tellAll dooms, ← hasSourceOf_roster,
          ← sources_roster, marked]
        simp only [Roster.tearDown, foundMember, memberRole]

theorem roster_settleSink (c : Context) (sink : Id) :
    (c.settleSink sink).context.roster = c.roster.settle sink := by
  unfold settleSink Roster.settle
  rw [get?_roster, hasSourceOf_roster]
  cases found : c.agents.get? sink with
  | none => rfl
  | some a =>
    show (if a.destroying = true ∧ ¬ c.hasSourceOf sink = true then _ else _ :
        ContextTurn).context.roster
      = if a.destroying = true ∧ ¬ c.hasSourceOf sink = true then _ else _
    split
    · exact roster_tellAll (Agent.member_handle_of_destroy rfl)
    · rfl

/-- The agent that leaves when a context is told that an agent has finished destroying: the one that
is named, unless it is a sink that still has sources. -/
def leaver? (c : Context) (e : Event) : Option Agent :=
  (e.agent?.bind c.agents.get?).filter fun a =>
    !(decide (a.role = .sink) && (e.agent?.map c.hasSourceOf).getD false)

theorem leaver?_eq_some {c : Context} {e : Event} {a : Agent} :
    c.leaver? e = some a ↔ ∃ id, e.agent? = some id ∧ c.agents.get? id = some a ∧
      (a.role = .sink → c.hasSourceOf id = false) := by
  unfold leaver?
  rw [Option.filter_eq_some_iff]
  constructor
  · rintro ⟨here, free⟩
    obtain ⟨id, named, found⟩ := Option.bind_eq_some_iff.1 here
    refine ⟨id, named, found, fun isSink => ?_⟩
    simpa [named, isSink] using free
  · rintro ⟨id, named, found, free⟩
    refine ⟨by rw [named]; exact found, ?_⟩
    cases role : a.role with
    | sink => simp [named, free role]
    | source => simp

/-- Nobody leaves: then the context stays as it is, and an agent that is named and here was refused
its leave. -/
theorem agentDestroyed_of_leaver?_eq_none {c : Context} {e : Event} (h : c.leaver? e = none) :
    (c.agentDestroyed e).context = c ∧ (c.agentDestroyed e).effects = [] ∧
    ∀ {id}, e.agent? = some id → c.agents.has id = true →
      (c.agentDestroyed e).result.isOk = false := by
  cases named : e.agent? with
  | none =>
    have same : c.agentDestroyed e = { context := c, result := .error .invalidId } := by
      simp only [agentDestroyed, named]
    rw [same]
    exact ⟨rfl, rfl, fun h => by cases h⟩
  | some id =>
    cases found : c.agents.get? id with
    | none =>
      have same : c.agentDestroyed e = { context := c } := by
        simp only [agentDestroyed, named, found]
      rw [same]
      refine ⟨rfl, rfl, fun isIt here => ?_⟩
      obtain rfl := Option.some.inj isIt
      rw [Table.has, found] at here
      cases here
    | some a =>
      by_cases kept : a.role = .sink ∧ c.hasSourceOf id = true
      · have same : c.agentDestroyed e = { context := c, result := .error .general } := by
          simp only [agentDestroyed, named, found, if_pos kept]
        rw [same]
        exact ⟨rfl, rfl, fun _ _ => rfl⟩
      · have leaves : c.leaver? e = some a := by
          refine leaver?_eq_some.2 ⟨id, named, found, fun isSink => ?_⟩
          exact Bool.eq_false_iff.2 fun attached => kept ⟨isSink, attached⟩
        rw [h] at leaves
        cases leaves

/-- What becomes of a context that an agent leaves, before the client is told. -/
def afterLeave (c : Context) (id : Id) (a : Agent) : ContextTurn :=
  match a.role with
  | .source => (c.retire id a).settleSink a.sink
  | .sink => { context := c.retire id a }

theorem result_settleSink (c : Context) (sink : Id) : (c.settleSink sink).result = .ok () := by
  unfold settleSink
  split
  · rfl
  · split
    · exact result_tellAll
    · rfl

theorem result_afterLeave (c : Context) (id : Id) (a : Agent) :
    (c.afterLeave id a).result = .ok () := by
  unfold afterLeave
  split
  · exact result_settleSink ..
  · rfl

theorem agentDestroyed_of_leaver? {c : Context} {e : Event} {a : Agent} {id : Id}
    (named : e.agent? = some id) (h : c.leaver? e = some a) :
    (c.agentDestroyed e).context = (c.afterLeave id a).context ∧
    (c.agentDestroyed e).effects
      = (c.afterLeave id a).effects ++ [.post ((c.afterLeave id a).context.goneNotice a)] ∧
    (c.agentDestroyed e).result = .ok () := by
  obtain ⟨id', named', found, free⟩ := leaver?_eq_some.1 h
  obtain rfl := Option.some.inj (named.symm.trans named')
  have goes : ¬ (a.role = .sink ∧ c.hasSourceOf id = true) := by
    rintro ⟨isSink, attached⟩
    rw [free isSink] at attached
    cases attached
  rw [← result_afterLeave c id a]
  simp only [agentDestroyed, named, found, if_neg goes]
  exact ⟨rfl, rfl, rfl⟩

theorem roster_afterLeave {c : Context} {id : Id} {a : Agent} (keyed : a.id = id) :
    (c.afterLeave id a).context.roster = c.roster.leave a.member := by
  subst keyed
  have retired : (c.retire a.id a).roster = c.roster.erase a.member.id := Table.mapValues_erase ..
  unfold afterLeave Roster.leave
  cases role : a.role with
  | sink =>
    have memberRole : a.member.role = .sink := role
    simp only [memberRole]
    exact retired
  | source =>
    have memberRole : a.member.role = .source := role
    simp only [memberRole]
    rw [roster_settleSink, retired]
    rfl

/-! ## Events -/

/-- The context after it has taken note of who asks. -/
def noting (c : Context) (e : Event) : Context :=
  { c with interaction := e.requester?.getD c.interaction }

/-- A context that has not been released takes every event in. -/
theorem receive_eq_ok_iff {c c' : Context} {e : Event} :
    c.receive e = .ok c' ↔ c.destroying = false ∧ c' = c.noting e := by
  unfold receive
  split
  · rename_i released
    rw [released]
    exact ⟨fun h => (by cases h), fun h => (by cases h.1)⟩
  · rename_i stands
    rw [Bool.not_eq_true] at stands
    constructor
    · intro h
      exact ⟨stands, (Except.ok.inj h).symm⟩
    · rintro ⟨-, rfl⟩
      rfl

/-- One that has been released takes none in. -/
theorem receive_eq_error_iff {c : Context} {e : Event} {fault : Fault} :
    c.receive e = .error fault ↔ c.destroying = true ∧ fault = .destroying := by
  unfold receive
  split
  · rename_i released
    constructor
    · intro h
      exact ⟨released, (Except.error.inj h).symm⟩
    · rintro ⟨-, rfl⟩
      rfl
  · rename_i stands
    exact ⟨fun h => (by cases h), fun h => absurd h.1 stands⟩

theorem roster_receive {c c' : Context} {e : Event} (h : c.receive e = .ok c') :
    c'.roster = c.roster ∧ c.Remains c' := by
  obtain ⟨-, rfl⟩ := receive_eq_ok_iff.1 h
  exact ⟨rfl, rfl, rfl⟩

/-- Only the two kinds of events that begin a teardown ask an agent for destruction. -/
theorem roster_distribute {c : Context} {e : Event} (sorted : c.roster.Sorted)
    (other : e.kind.step ≠ .destroy) : (c.distribute e).context.roster = c.roster := by
  unfold distribute
  split
  · rfl
  · exact roster_tell_of_same sorted (Agent.member_handle_of_ne other)

/-! ## Making agents -/

/-- Whoever is published is taken in, and a source finds its sink there, alive. -/
theorem publish_eq_ok {c c' : Context} {a : Agent} (h : c.publish a = .ok c') :
    c' = { c with agents := c.agents.put a.id a } ∧
    (a.role = .source → ∃ s, c.agents.get? a.sink = some s ∧ s.destroying = false) := by
  cases role : a.role with
  | sink =>
    simp only [publish, role, if_true] at h
    exact ⟨(Except.ok.inj h).symm, fun source => by cases source⟩
  | source =>
    simp only [publish, role] at h
    split at h
    · rename_i welcome
      obtain ⟨s, found, alive⟩ := (Option.any_eq_true _ _).1 welcome
      exact ⟨(Except.ok.inj h).symm, fun _ => ⟨s, found, by simpa using alive⟩⟩
    · cases h

theorem roster_publish {c c' : Context} {a : Agent} (h : c.publish a = .ok c') :
    c'.roster = c.roster.put a.id a.member ∧ c.Remains c' ∧
    (a.role = .source → ∃ s, c.roster.get? a.sink = some s ∧ s.destroying = false) := by
  obtain ⟨rfl, welcome⟩ := publish_eq_ok h
  refine ⟨Table.mapValues_put .., ⟨rfl, rfl⟩, fun source => ?_⟩
  obtain ⟨s, found, alive⟩ := welcome source
  exact ⟨s.member, member_of_agent found, alive⟩

theorem liveSink_eq_ok {c : Context} {id : Id} {s : Agent} (h : c.liveSink id = .ok s) :
    c.agents.get? id = some s ∧ s.role = .sink ∧ s.destroying = false := by
  unfold liveSink at h
  split at h
  · cases h
  · rename_i sink found
    obtain ⟨here, isSink⟩ := Option.filter_eq_some_iff.1 found
    split at h
    · cases h
    · rename_i alive
      obtain rfl := Except.ok.inj h
      exact ⟨here, of_decide_eq_true isSink, Bool.eq_false_iff.2 alive⟩

end Context

end CastHub
