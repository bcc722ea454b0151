import CastHub.Proofs.Acts
/-!
# Whoever leaves is announced once

Agents leave their contexts when a context is told that they have finished destroying, and at no
other time. As long as sessions send no news of their own, a client is told of each of them once,
and of a sink only after all of its sources. Agents are counted by their numbers here, so it takes
that no number is handed out twice.
-/

namespace CastHub

open Population (gone joined Recorded)

namespace Hub

/-- At some point of several acts, a context that the hub holds has a given agent. -/
def Publishes (hub : Hub) (acts : List Act) (context agent : Id) (a : Agent) : Prop :=
  ∃ before rest c, acts = before ++ rest ∧ (hub.after before).contexts.get? context = some c ∧
    c.agents.get? agent = some a

/-- The notices about a given agent. -/
def noticesOf (journal : List Moment) (agent : Id) : List Payload :=
  (notices journal).filter (·.agent? = some agent)

/-! ## Who is there, and who was -/

theorem Fit.mem_present {hub : Hub} (h : hub.Fit) {x id : Id} {c : Context} {a : Agent}
    (held : hub.contexts.get? x = some c) (here : c.agents.get? id = some a) :
    (x, a.member.who) ∈ hub.population.present ∧ a.id = id := by
  have found := Context.member_of_agent here
  exact h.orderly.present_of_roster (roster_of_held held) found

theorem Fit.holds_iff {hub : Hub} (h : hub.Fit) {x id : Id} :
    hub.holds x id = true ↔ ∃ n, (x, n) ∈ hub.population.present ∧ n.id = id := by
  constructor
  · intro holds
    obtain ⟨c, held, has⟩ := (Option.any_eq_true _ _).1 holds
    obtain ⟨a, here⟩ := Option.isSome_iff_exists.1 has
    obtain ⟨there, keyed⟩ := h.mem_present held here
    exact ⟨a.member.who, there, keyed⟩
  · rintro ⟨n, there, rfl⟩
    obtain ⟨r, m, held, here, _⟩ := h.orderly.mem_present.1 there
    rw [get?_rosters] at held
    obtain ⟨c, own, rfl⟩ := Option.map_eq_some_iff.1 held
    obtain ⟨a, agent, _⟩ := Context.agent_of_member here
    rw [holds_of_held own, Table.has, agent]
    rfl

/-- Whoever is removed was in a context. -/
theorem publishes_of_removal {hub : Hub} {acts : List Act} {x id : Id}
    (removed : (x, id) ∈ removals (hub.journal acts)) : ∃ a, hub.Publishes acts x id a := by
  obtain ⟨m, mem, removes⟩ := List.mem_filterMap.1 removed
  obtain ⟨_, there⟩ := Option.filter_eq_some_iff.1 removes
  obtain ⟨before, act, rest, split, rfl⟩ := mem_journal mem
  obtain ⟨c, held, has⟩ := (Option.any_eq_true _ _).1 (Bool.and_eq_true_iff.1 there).1
  obtain ⟨a, here⟩ := Option.isSome_iff_exists.1 has
  exact ⟨a, before, act :: rest, c, split, held, here⟩

/-- Whoever was published has joined. -/
theorem Publishes.joined {hub : Hub} (fresh : hub.IsFresh) {acts : List Act} {cs : List Change}
    (undergoes : hub.Undergoes acts cs) {x id : Id} {a : Agent}
    (published : hub.Publishes acts x id a) : (x, a.member.who) ∈ joined cs ∧ a.id = id := by
  obtain ⟨before, rest, c, split, held, here⟩ := published
  obtain ⟨there, keyed⟩ := (fresh.fit_after before).mem_present held here
  refine ⟨?_, keyed⟩
  rcases undergoes.seen split there with first | joins
  · rw [fresh.present] at first
    cases first
  · exact joins

/-- No source hangs on itself. -/
theorem Publishes.sink_ne {hub : Hub} (fresh : hub.IsFresh) {acts : List Act}
    (spares : ∀ m ∈ hub.journal acts, m.Spares) {x id : Id} {a : Agent}
    (published : hub.Publishes acts x id a) (source : a.role = .source) : a.sink ≠ id := by
  obtain ⟨before, rest, c, rfl, held, here⟩ := published
  have sound : (hub.after before).Sound := fresh.sound_after fun m mem => spares m <| by
    rw [journal_append]
    exact List.mem_append_left _ mem
  have found := Context.member_of_agent here
  obtain ⟨s, there, isSink, _⟩ := (sound.attached (context?_of_held held)).anchored found source
  intro own
  have there : c.roster.get? id = some s := own ▸ there
  rw [found] at there
  obtain rfl := Option.some.inj there
  have isSource : a.member.role = .source := source
  rw [isSource] at isSink
  cases isSink

/-- The notices about somebody among those of several who have left. -/
theorem filter_partingOf (left : List (Id × Member)) (id : Id) :
    (left.map partingOf).filter (·.agent? = some id)
      = (left.filter (·.2.id = id)).map partingOf := by
  rw [List.filter_map]
  refine congrArg (List.map partingOf) (List.filter_congr fun g _ => ?_)
  exact decide_eq_decide.2 ⟨Option.some.inj, congrArg some⟩

/-- The notices about somebody are the notices of those of its identity who have left. -/
theorem noticesOf_eq {journal : List Moment} {cs : List Change}
    (said : notices journal = (gone cs).map partingOf) (id : Id) :
    noticesOf journal id = ((gone cs).filter (·.2.id = id)).map partingOf := by
  unfold noticesOf
  rw [said, filter_partingOf]

/-! ## What becomes of everybody -/

section Fates

variable {hub : Hub} {acts : List Act} {cs : List Change}

/-- Somebody who has left is there no longer, and was removed and announced once. -/
theorem Undergoes.of_gone (undergoes : hub.Undergoes acts cs)
    (record : hub.population.Recorded cs (hub.after acts).population)
    (said : notices (hub.journal acts) = (gone cs).map partingOf)
    {x : Id} {n : Member} (left : (x, n) ∈ gone cs) :
    (hub.after acts).holds x n.id = false ∧
      (removals (hub.journal acts)).count (x, n.id) = 1 ∧
      noticesOf (hub.journal acts) n.id = [Context.partingNotice x n.id n.role] := by
  refine ⟨?_, ?_, ?_⟩
  · rw [Bool.eq_false_iff]
    intro holds
    obtain ⟨m, there, same⟩ := (Fit.holds_iff ⟨record.sound.toOrderly, undergoes.tidy⟩).1 holds
    have isIt : (x, m) = (x, n) :=
      record.injective (record.came_of_present there) (record.came_of_gone left) same
    exact record.not_gone there (isIt ▸ left)
  · have once : ((gone cs).map whose).Nodup := by
      refine List.Nodup.of_map Prod.snd ?_
      rw [List.map_map]
      exact record.nodup_ids
    rw [← undergoes.removed]
    exact List.count_eq_one_of_mem once (List.mem_map.2 ⟨_, left, rfl⟩)
  · rw [noticesOf_eq said]
    exact congrArg (List.map partingOf) (record.filter_gone left)

/-- Somebody who is there has not been removed, nor announced. -/
theorem Undergoes.of_present (undergoes : hub.Undergoes acts cs)
    (record : hub.population.Recorded cs (hub.after acts).population)
    (said : notices (hub.journal acts) = (gone cs).map partingOf)
    {x : Id} {n : Member} (there : (x, n) ∈ (hub.after acts).population.present) :
    (hub.after acts).holds x n.id = true ∧
      (removals (hub.journal acts)).count (x, n.id) = 0 ∧
      noticesOf (hub.journal acts) n.id = [] := by
  refine ⟨(Fit.holds_iff ⟨record.sound.toOrderly, undergoes.tidy⟩).2 ⟨n, there, rfl⟩, ?_, ?_⟩
  · rw [← undergoes.removed]
    apply List.count_eq_zero_of_not_mem
    intro removed
    obtain ⟨g, left, same⟩ := List.mem_map.1 removed
    have isIt : g = (x, n) := record.injective (record.came_of_gone left)
      (record.came_of_present there) (congrArg Prod.snd same)
    exact record.not_gone there (isIt ▸ left)
  · rw [noticesOf_eq said]
    exact congrArg (List.map partingOf) (record.filter_present there)

/-- Whoever has left was published. -/
theorem Undergoes.published_of_gone (fresh : hub.IsFresh) (undergoes : hub.Undergoes acts cs)
    (record : hub.population.Recorded cs (hub.after acts).population)
    {g : Id × Member} (left : g ∈ gone cs) :
    ∃ a, hub.Publishes acts g.1 g.2.id a ∧ g.2.role = a.role := by
  have removed : (g.1, g.2.id) ∈ removals (hub.journal acts) := by
    rw [← undergoes.removed]
    exact List.mem_map.2 ⟨g, left, rfl⟩
  obtain ⟨a, published⟩ := publishes_of_removal removed
  obtain ⟨joins, keyed⟩ := published.joined fresh undergoes
  have isIt : g = (g.1, a.member.who) :=
    record.injective (record.came_of_gone left) (List.mem_append_right _ joins) keyed.symm
  exact ⟨a, published, congrArg (·.2.role) isIt⟩

/-- When a sink leaves, all of its sources have left. -/
theorem Publishes.gone_before (fresh : hub.IsFresh) (undergoes : hub.Undergoes acts cs)
    (spares : ∀ m ∈ hub.journal acts, m.Spares)
    (record : hub.population.Recorded cs (hub.after acts).population) {x id : Id} {a : Agent}
    (published : hub.Publishes acts x id a) (source : a.role = .source)
    {before after : List (Id × Member)} {g : Id × Member} (order : gone cs = before ++ g :: after)
    (isSink : a.sink = g.2.id) : (x, a.member.who) ∈ before := by
  obtain ⟨joins, rfl⟩ := published.joined fresh undergoes
  have attached : a.member.who.isSourceOf g.2.id = true :=
    Member.isSourceOf_iff.2 ⟨source, isSink⟩
  have left : (x, a.member.who) ∈ gone cs :=
    record.complete g (order ▸ List.mem_append_right _ (List.mem_cons_self ..)) _
      (List.mem_append_right _ joins) attached
  apply Population.sooner_of_ordered record.ordered order left attached
  -- no source is its own sink
  intro same
  have own : a.sink = a.id := isSink.trans (congrArg (·.2.id) same).symm
  exact published.sink_ne fresh spares source own

end Fates

/-- **Whoever leaves is announced once.** Whatever happens to a hub, as long as no session sends
news of its own, no context is released by force and no number is handed out twice: every agent that
was ever in a context is still there, was never removed and never announced; or it is gone, was
removed by exactly one act that said that it had finished destroying, and was announced exactly
once, with its context and its role. Nobody else is announced, and a sink is announced after every
source that was ever attached to it. -/
theorem whoever_leaves_is_announced_once {hub : Hub} (fresh : hub.IsFresh) (acts : List Act)
    (discreet : ∀ m ∈ hub.journal acts, m.Discreet) (kept : ∀ act ∈ acts, act.releases = false)
    (once : (minted (hub.journal acts)).Nodup) :
    (∀ x id a, hub.Publishes acts x id a →
      ((hub.after acts).holds x id = true ∧ (removals (hub.journal acts)).count (x, id) = 0 ∧
        noticesOf (hub.journal acts) id = []) ∨
      ((hub.after acts).holds x id = false ∧ (removals (hub.journal acts)).count (x, id) = 1 ∧
        noticesOf (hub.journal acts) id = [Context.partingNotice x id a.role])) ∧
    (∀ notice ∈ notices (hub.journal acts), ∃ x id a, hub.Publishes acts x id a ∧
      notice = Context.partingNotice x id a.role) ∧
    (∀ x id a, hub.Publishes acts x id a → a.role = .source → ∀ earlier notice later,
      notices (hub.journal acts) = earlier ++ notice :: later → notice.agent? = some a.sink →
      Context.partingNotice x id a.role ∈ earlier) := by
  obtain ⟨cs, undergoes⟩ := fresh.fit.after acts
  have spares := fresh.spares_of_nodup once
  have record : hub.population.Recorded cs (hub.after acts).population :=
    fresh.sound.sound.recorded_run undergoes.run
      ⟨fun id _ => Population.not_uses_of_empty fresh.rosters fresh.arrivals id,
        undergoes.minted ▸ once⟩ (undergoes.kept kept)
  have said := undergoes.said discreet
  refine ⟨?_, ?_, ?_⟩
  · intro x id a published
    obtain ⟨joins, rfl⟩ := published.joined fresh undergoes
    -- whoever has joined has left or is there, and never both
    have came := List.mem_append_right hub.population.present joins
    rcases List.mem_append.1 (record.balanced.mem_iff.1 came) with left | there
    · exact .inr (undergoes.of_gone record said left)
    · exact .inl (undergoes.of_present record said there)
  · intro notice mem
    rw [said] at mem
    obtain ⟨g, left, rfl⟩ := List.mem_map.1 mem
    obtain ⟨a, published, role⟩ := undergoes.published_of_gone fresh record left
    refine ⟨g.1, g.2.id, a, published, ?_⟩
    unfold partingOf
    rw [role]
  · intro x id a published source earlier notice later split names
    rw [said] at split
    obtain ⟨before, others, order, rfl, rest⟩ := List.map_eq_append_iff.1 split
    obtain ⟨g, after, rfl, rfl, rfl⟩ := List.map_eq_cons_iff.1 rest
    have isSink : a.sink = g.2.id := (Option.some.inj names).symm
    have sooner := published.gone_before fresh undergoes spares record source order isSink
    obtain ⟨_, rfl⟩ := published.joined fresh undergoes
    exact List.mem_map.2 ⟨_, sooner, rfl⟩

/-- So it is with the sink of a sharing session that comes to its end. -/
theorem whoever_leaves_is_announced_once_after_parting :
    ∃ a, loopback.Publishes (Act.sharing ++ Act.parting) 1 2 a ∧
      (loopback.after (Act.sharing ++ Act.parting)).holds 1 2 = false ∧
      (removals (loopback.journal (Act.sharing ++ Act.parting))).count (1, 2) = 1 ∧
      noticesOf (loopback.journal (Act.sharing ++ Act.parting)) 2
        = [Context.partingNotice 1 2 .sink] := by
  have published : ∃ a, loopback.Publishes (Act.sharing ++ Act.parting) 1 2 a ∧ a.role = .sink :=
    ⟨_, ⟨Act.sharing, Act.parting, _, rfl, rfl, rfl⟩, rfl⟩
  obtain ⟨a, published, isSink⟩ := published
  have discreet : ∀ m ∈ loopback.journal (Act.sharing ++ Act.parting), m.Discreet := by
    decide
  have kept : ∀ act ∈ Act.sharing ++ Act.parting, act.releases = false := by
    simp [Act.sharing, Act.parting, Act.request, Act.grant, Act.say, Act.releases]
  obtain ⟨each, _, _⟩ := whoever_leaves_is_announced_once isFresh_loopback
    (Act.sharing ++ Act.parting) discreet kept (by decide)
  have left : (loopback.after (Act.sharing ++ Act.parting)).holds 1 2 = false := by decide
  rcases each 1 2 a published with ⟨there, _, _⟩ | ⟨_, once, announced⟩
  · rw [left] at there
    cases there
  · rw [isSink] at announced
    exact ⟨a, published, left, once, announced⟩

end Hub

end CastHub
