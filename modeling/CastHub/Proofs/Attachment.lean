import CastHub.Proofs.Acts
/-!
# Sources hang on sinks

Whatever happens to a hub, in every context that it holds each agent is entered under its own
identity, and each source finds its sink there, on one channel with it. A sink may be destroyed and
removed while a source of it is being made; then the source is turned away at its publication. And a
sink that has a source does not leave, whoever says that it should.

All of this takes that no live number is met again: a source that gets the number of its own sink
stands in its place then.
-/

namespace CastHub

namespace Context

/-- A sink with a source stays when an agent leaves, whichever agent that is. -/
theorem sink_of_agentDestroyed {c : Context} (attached : c.roster.Attached) (e : Event) {sink : Id}
    (has : c.hasSourceOf sink = true) :
    ∃ s, (c.agentDestroyed e).context.agents.get? sink = some s ∧ s.role = .sink := by
  rw [← hasSourceOf_roster] at has
  obtain ⟨id, m, found, isSource⟩ := (Roster.hasSourceOf_iff attached.sorted).1 has
  obtain ⟨source, isIts⟩ := Member.isSourceOf_iff.1 isSource
  obtain ⟨s, here, isSink, _⟩ := attached.anchored found source
  rw [isIts] at here
  suffices kept : ∃ n, (c.agentDestroyed e).context.roster.get? sink = some n ∧ n.who = s.who by
    obtain ⟨n, there, who⟩ := kept
    obtain ⟨a, agent, rfl⟩ := agent_of_member there
    refine ⟨a, agent, ?_⟩
    show a.member.role = .sink
    rw [← Member.role_who, who, Member.role_who, isSink]
  cases leaver : c.leaver? e with
  | none =>
    obtain ⟨same, _⟩ := agentDestroyed_of_leaver?_eq_none leaver
    exact ⟨s, by rw [same, here], rfl⟩
  | some a =>
    obtain ⟨leaving, named, there, free⟩ := leaver?_eq_some.1 leaver
    obtain ⟨after, _⟩ := agentDestroyed_of_leaver? named leaver
    have member := member_of_agent there
    have keyed : a.id = leaving := (attached.keyed member).1
    -- whoever leaves is not the sink: that one may not, and a source is not a sink
    have other : sink ≠ a.member.id := by
      rintro rfl
      have unattached : c.roster.hasSourceOf a.member.id = false := by
        cases role : a.role with
        | sink =>
          rw [hasSourceOf_roster]
          show c.hasSourceOf a.id = false
          rw [keyed]
          exact free role
        | source =>
          have present : c.roster.get? a.member.id = some a.member := by
            show c.roster.get? a.id = some a.member
            rw [keyed, member]
          exact attached.hasSourceOf_source present role
      rw [unattached] at has
      cases has
    have people : (c.agentDestroyed e).context.roster.people.get? sink = some s.who := by
      rw [after, roster_afterLeave keyed, Roster.people_leave attached.sorted, Table.get?_erase,
        if_neg other, Roster.get?_people, here]
      rfl
    rw [Roster.get?_people] at people
    exact Option.map_eq_some_iff.1 people

end Context

/-- **Sources hang on sinks.** At any time, as long as no live number has been met again, in every
context that the hub holds: each agent stands under its own identity, which is assigned; each
source's sink is there, is a sink, and has the channel of the source, which is assigned, too; and a
sink that has a source stays when the context is told that an agent has finished destroying. -/
theorem Hub.sources_hang_on_sinks {hub : Hub} (fresh : hub.IsFresh) (acts : List Act)
    (spares : ∀ m ∈ hub.journal acts, m.Spares) {x : Id} {c : Context}
    (held : (hub.after acts).contexts.get? x = some c) :
    (∀ e ∈ c.agents, e.2.id = e.1 ∧ e.1 ≠ .unassigned) ∧
    (∀ e ∈ c.agents, e.2.role = .source → ∃ s, c.agents.get? e.2.sink = some s ∧
      s.role = .sink ∧ e.2.channel = s.channel ∧ s.channel ≠ .unassigned) ∧
    (∀ (e : Event) (sink : Id), c.hasSourceOf sink = true →
      ∃ s, (c.agentDestroyed e).context.agents.get? sink = some s ∧ s.role = .sink) := by
  have attached : c.roster.Attached := (fresh.sound_after spares).attached (context?_of_held held)
  have sorted : c.agents.Sorted := Table.sorted_mapValues.1 attached.sorted
  have member : ∀ e ∈ c.agents, c.roster.get? e.1 = some e.2.member := fun e mem =>
    Context.member_of_agent (Table.get?_of_mem sorted mem)
  refine ⟨fun e mem => attached.keyed (member e mem), ?_,
    fun e sink has => Context.sink_of_agentDestroyed attached e has⟩
  intro e mem source
  obtain ⟨s, found, isSink, channel⟩ := attached.anchored (member e mem) source
  have assigned := attached.channelled found
  obtain ⟨a, there, rfl⟩ := Context.agent_of_member found
  exact ⟨a, there, isSink, channel.symm, assigned⟩

/-- So it is after a sink and a source of it have been made. -/
theorem Hub.sources_hang_on_sinks_after_sharing :
    ∃ c, (Hub.loopback.after Act.sharing).contexts.get? 1 = some c ∧ c.hasSourceOf 2 = true ∧
      (∀ e ∈ c.agents, e.2.id = e.1 ∧ e.1 ≠ .unassigned) ∧
      (∀ e ∈ c.agents, e.2.role = .source → ∃ s, c.agents.get? e.2.sink = some s ∧
        s.role = .sink ∧ e.2.channel = s.channel ∧ s.channel ≠ .unassigned) ∧
      (∀ (e : Event) (sink : Id), c.hasSourceOf sink = true →
        ∃ s, (c.agentDestroyed e).context.agents.get? sink = some s ∧ s.role = .sink) :=
  ⟨_, rfl, by decide,
    @Hub.sources_hang_on_sinks _ Hub.isFresh_loopback Act.sharing (by decide) 1 _ rfl⟩

end CastHub
