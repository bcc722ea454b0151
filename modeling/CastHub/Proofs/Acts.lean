import CastHub.Proofs.Events
/-!
# What acts do to a population

Every act takes the population of a hub through a few of its small steps (`Hub.Fit.perform`), and
so does every sequence of acts (`Hub.Fit.after`). Whoever leaves on the way is removed by an act
that says so, and, as long as sessions are discreet, whoever leaves is announced.
-/

namespace CastHub

open Population (gone joined)

namespace Hub

/-- What an act may come to. Whoever comes without being waited for comes in vain, and so does an
event for a context that is not there. -/
inductive PerformCases (hub : Hub) : Act → Prop
  | handles (e : Event) : PerformCases hub (.event e)
  | lost (x : Id) (e : Event) (missing : hub.context? x = none)
      (comes : hub.perform (.contextEvent x e) = { hub }) : PerformCases hub (.contextEvent x e)
  | delivers (x : Id) (e : Event) (c : Context) (there : hub.context? x = some c)
      (comes : hub.perform (.contextEvent x e) = (hub.deliver c e).done) :
      PerformCases hub (.contextEvent x e)
  | unbuilt (comes : hub.perform .built = { hub }) : PerformCases hub .built
  | builds (t : HubTurn) (made : hub.built = some t) (comes : hub.perform .built = t.done) :
      PerformCases hub .built
  | unanswered (answer : Except Fault Event) (comes : hub.perform (.answered answer) = { hub }) :
      PerformCases hub (.answered answer)
  | answers (answer : Except Fault Event) (t : HubTurn) (made : hub.answered answer = some t)
      (comes : hub.perform (.answered answer) = t.done) : PerformCases hub (.answered answer)
  | overhears (x id : Id) (news : SessionNews) : PerformCases hub (.news x id news)
  | registers (className : String) (cls : SessionClass) :
      PerformCases hub (.register className cls)
  | starts (config : Config) : PerformCases hub (.init config)
  | closes (x : Id) : PerformCases hub (.close x)

theorem perform_contextEvent {hub : Hub} {x : Id} {c : Context} (there : hub.context? x = some c)
    (e : Event) : hub.perform (.contextEvent x e) = (hub.deliver c e).done := by
  simp only [Hub.perform, there, Option.map_some, Option.getD_some]

theorem perform_cases (hub : Hub) (act : Act) : hub.PerformCases act := by
  cases act with
  | event e => exact .handles e
  | contextEvent x e =>
    cases there : hub.context? x with
    | none =>
      exact .lost x e there (by simp only [Hub.perform, there, Option.map_none, Option.getD_none])
    | some c => exact .delivers x e c there (perform_contextEvent there e)
  | built =>
    cases made : hub.built with
    | none => exact .unbuilt (by simp only [Hub.perform, made, Option.map_none, Option.getD_none])
    | some t =>
      exact .builds t made (by simp only [Hub.perform, made, Option.map_some, Option.getD_some])
  | answered answer =>
    cases made : hub.answered answer with
    | none =>
      exact .unanswered answer
        (by simp only [Hub.perform, made, Option.map_none, Option.getD_none])
    | some t =>
      exact .answers answer t made
        (by simp only [Hub.perform, made, Option.map_some, Option.getD_some])
  | news x id news => exact .overhears x id news
  | register className cls => exact .registers className cls
  | init config => exact .starts config
  | close x => exact .closes x

/-- What is known about one act: the population takes a few steps, for at most two of which a number
is drawn, contexts are released and quotas passed only if the act does so, and whoever leaves is the
one that is removed, and announced. -/
structure Does (hub : Hub) (act : Act) (cs : List Change) : Prop where
  run : Population.Run hub.population cs (hub.perform act).hub.population
  tidy : (hub.perform act).hub.Tidy
  draws : hub.ids.Draws (Population.minted cs) (hub.perform act).hub.ids
  few : (Population.minted cs).length ≤ 2
  said : (hub.moment act).Discreet →
    noticesAmong (hub.perform act).effects = (gone cs).map partingOf
  calm : Calm act.releases (hub.moment act).passesQuota cs
  removed : (gone cs).map whose = (hub.moment act).removal?.toList

/-- An act that comes to a turn of the hub does what the turn does. -/
theorem Turns.does {hub : Hub} {act : Act} {t : HubTurn} {evades : Bool}
    (comes : hub.perform act = t.done)
    (turns : hub.Turns evades 2 (hub.removed? act.unmakes? t.outcome.isOk) t.effects t.hub)
    (within : (act.setsLimits || t.outcome.evadesQuota) = false → evades = false) :
    ∃ cs, hub.Does act cs := by
  obtain ⟨cs, goes, calm, few, removed⟩ := turns
  refine ⟨cs, ?_⟩
  constructor
  · rw [comes]
    exact goes.run
  · rw [comes]
    exact goes.tidy
  · rw [comes]
    exact goes.draws
  · exact few
  · intro discreet
    have called := discreet.called
    unfold moment at called
    rw [comes] at called ⊢
    exact goes.said called
  · unfold moment
    rw [comes]
    exact calm.weaken (fun _ => rfl) within
  · unfold Moment.removal? moment
    rw [comes]
    exact removed

/-- An act that comes to nothing. -/
theorem Fit.does_nothing {hub : Hub} (h : hub.Fit) {act : Act} (comes : hub.perform act = { hub }) :
    hub.Does act [] where
  run := by
    rw [comes]
    exact .nil
  tidy := by
    rw [comes]
    exact h.tidy
  draws := by
    rw [comes]
    exact IdSource.draws_nil _
  few := Nat.zero_le _
  said _ := by
    rw [comes]
    rfl
  calm := calm_nil
  removed := by
    have idle : (hub.perform act).isOk = false := by
      rw [comes]
      rfl
    unfold Moment.removal? moment
    rw [idle, removed?_of_fault]
    rfl

/-! ## News -/

/-- An agent in the making that hears from its session remains who it is. -/
theorem overhear_same (creation : Creation) (id : Id) (news : SessionNews) :
    (creation.overhear id news).context = creation.context ∧
    (creation.overhear id news).origin = creation.origin ∧
    (creation.overhear id news).awaited = creation.awaited ∧
    (creation.overhear id news).agent.member = creation.agent.member := by
  unfold Creation.overhear
  split
  · exact ⟨rfl, rfl, rfl, rfl⟩
  · split
    · exact ⟨rfl, rfl, rfl, creation.agent.member_hear news⟩
    · exact ⟨rfl, rfl, rfl, rfl⟩

theorem arrival_overhear (creation : Creation) (id : Id) (news : SessionNews) :
    (creation.overhear id news).arrival = creation.arrival := by
  obtain ⟨context, origin, _, member⟩ := overhear_same creation id news
  unfold Creation.arrival
  rw [context, origin, member]

/-- News that agents in the making hear does not change who they are. -/
theorem Fit.overhear_creations {hub : Hub} (h : hub.Fit) (id : Id) (news : SessionNews) :
    hub.Goes [] [] { hub with creations := hub.creations.map (·.overhear id news) } where
  run := by
    have same : (hub.creations.map (·.overhear id news)).map Creation.arrival
        = hub.creations.map Creation.arrival := by
      rw [List.map_map]
      refine congrArg (List.map · hub.creations) ?_
      funext creation
      exact arrival_overhear creation id news
    show Population.Run _ _ { hub.population with
      arrivals := (hub.creations.map (·.overhear id news)).map Creation.arrival }
    rw [same]
    exact .nil
  draws := IdSource.draws_nil _
  tidy := by
    refine ⟨h.tidy.held, h.tidy.released, ?_, ?_⟩
    · intro creation mem
      obtain ⟨old, before, rfl⟩ := List.mem_map.1 mem
      rw [(overhear_same old id news).2.1]
      exact h.tidy.apt old before
    · intro creation mem waits
      obtain ⟨old, before, rfl⟩ := List.mem_map.1 mem
      obtain ⟨_, _, awaited, member⟩ := overhear_same old id news
      rw [awaited] at waits
      have role : (old.overhear id news).agent.role = old.agent.role := congrArg Member.role member
      rw [role]
      exact h.tidy.waiting old before waits
  said _ := rfl

/-- News that a session gives of its own accord does not change who is there. -/
theorem Fit.overhear {hub : Hub} (h : hub.Fit) (x id : Id) (news : SessionNews)
    {t : ActTurn} (comes : hub.overhear x id news = t) :
    Population.Run hub.population [] t.hub.population ∧ t.hub.Tidy ∧ t.hub.ids = hub.ids ∧
      (news.isPrivate = false → IsQuiet t.effects) := by
  unfold Hub.overhear at comes
  split at comes
  · subst comes
    exact ⟨.nil, h.tidy, rfl, fun _ => isQuiet_nil⟩
  · rename_i c there
    have written : ∀ {c'}, c.Remains c' → c'.roster = c.roster →
        Population.Run hub.population [] (hub.keep c').population ∧ (hub.keep c').Tidy := by
      intro c' remains same
      rw [h.population_keep there remains same]
      exact ⟨.nil, h.tidy.keep there remains⟩
    split at comes
    · subst comes
      have same : (c.tell id (·.overhear news)).context.roster = c.roster :=
        Context.roster_tell_of_same (h.sorted there) fun a => a.member_hear news
      obtain ⟨run, tidy⟩ := written (c.remains_tell id (·.overhear news)) same
      exact ⟨run, tidy, hub.ids_keep _, fun isOpen => c.quiet_tell id fun a =>
        a.quiet_overhear isOpen⟩
    · split at comes
      · subst comes
        obtain ⟨run, tidy⟩ := written (c.remains_tellRetired id (hub.reaches x) (·.overhear news))
          (c.roster_tellRetired ..)
        exact ⟨run, tidy, hub.ids_keep _, fun isOpen => c.quiet_tellRetired _ _ fun a =>
          a.quiet_overhear isOpen⟩
      · subst comes
        have goes := h.overhear_creations id news
        exact ⟨goes.run, goes.tidy, rfl, fun _ => isQuiet_nil⟩

/-! ## Acts -/

/-- **What an act does to the population of a hub.** -/
theorem Fit.perform {hub : Hub} (h : hub.Fit) (act : Act) : ∃ cs, hub.Does act cs := by
  cases hub.perform_cases act with
  | handles e => exact (h.handle e).does rfl fun none => (Bool.or_eq_false_iff.1 none).1
  | lost x e missing comes => exact ⟨[], h.does_nothing comes⟩
  | delivers x e c there comes =>
    exact (@Fit.deliver hub h x c e there false).does comes fun _ => rfl
  | unbuilt comes => exact ⟨[], h.does_nothing comes⟩
  | builds t made comes =>
    exact (h.built made).does comes fun none => (Bool.or_eq_false_iff.1 none).2
  | unanswered answer comes => exact ⟨[], h.does_nothing comes⟩
  | answers answer t made comes =>
    exact (h.answered made).does comes fun none => (Bool.or_eq_false_iff.1 none).2
  | overhears x id news =>
    obtain ⟨run, tidy, same, quiet⟩ := h.overhear x id news rfl
    have draws : hub.ids.Draws [] (hub.overhear x id news).hub.ids := by
      rw [same]
      exact IdSource.draws_nil _
    exact ⟨[], run, tidy, draws, Nat.zero_le _,
      fun discreet => quiet discreet.unasked discreet.called, calm_nil, rfl⟩
  | registers className cls =>
    exact ⟨[], .nil, h.tidy.fewer rfl rfl (List.Subset.refl _), IdSource.draws_nil _,
      Nat.zero_le _, fun _ => rfl, calm_nil, rfl⟩
  | starts config =>
    obtain ⟨cs, goes, calm, few, removed⟩ := h.init config
    exact ⟨cs, goes.run, goes.tidy, goes.draws, few, fun discreet => goes.said discreet.called,
      calm, removed⟩
  | closes x =>
    cases held : hub.contexts.get? x with
    | none =>
      have comes : hub.perform (.close x) = { hub } := by
        simp only [Hub.perform, closeContext_of_missing held]
      exact ⟨[], h.does_nothing comes⟩
    | some c =>
      -- whoever is in the context goes with it, and nobody says so
      have goes := h.closeContext held (.released x c.roster (roster_of_held held)) rfl rfl
      exact ⟨_, goes.run, goes.tidy, goes.draws, Nat.zero_le _,
        fun discreet => goes.said discreet.called, calm_singleton (by rintro ⟨⟩) (fun _ => rfl),
        rfl⟩

theorem Does.fit {hub : Hub} {act : Act} {cs : List Change} (h : hub.Fit) (does : hub.Does act cs) :
    (hub.perform act).hub.Fit := ⟨h.orderly.run does.run, does.tidy⟩

/-! ## Numbers -/

/-- The numbers that are handed out at a moment are those that the steps of the population take. -/
theorem Does.minted {hub : Hub} {act : Act} {cs : List Change} (does : hub.Does act cs) :
    (hub.moment act).minted = Population.minted cs :=
  does.draws.between does.few (by decide)

theorem Fit.isLive_of_uses {hub : Hub} {id : Id} (uses : hub.population.Uses id) :
    hub.isLive id = true := by
  unfold isLive
  rw [Bool.or_eq_true, Bool.or_eq_true]
  cases uses with
  | context held =>
    rw [get?_rosters] at held
    obtain ⟨c, there, _⟩ := Option.map_eq_some_iff.1 held
    have has : hub.contexts.has id = true := by rw [Table.has, there]; rfl
    exact .inl (.inl (Bool.or_eq_true_iff.2 (.inl has)))
  | member held here =>
    rw [get?_rosters] at held
    obtain ⟨c, there, rfl⟩ := Option.map_eq_some_iff.1 held
    obtain ⟨a, found, _⟩ := Context.agent_of_member here
    have has : c.agents.has id = true := by rw [Table.has, found]; rfl
    exact .inl (.inr (List.any_eq_true.2 ⟨_, Table.mem_of_get? there, has⟩))
  | target mem same =>
    obtain ⟨creation, listed, rfl⟩ := List.mem_map.1 mem
    have isIt : creation.context = id := same
    exact .inl (.inl (Bool.or_eq_true_iff.2 (.inr
      (List.any_eq_true.2 ⟨creation, listed, decide_eq_true isIt⟩))))
  | arrival mem same =>
    obtain ⟨creation, listed, rfl⟩ := List.mem_map.1 mem
    have isIt : creation.agent.id = id := same
    exact .inr (List.any_eq_true.2 ⟨creation, listed,
      Bool.or_eq_true_iff.2 (.inl (decide_eq_true isIt))⟩)
  | sink mem source same =>
    obtain ⟨creation, listed, rfl⟩ := List.mem_map.1 mem
    have isSource : creation.agent.role = .source := source
    have isIt : creation.agent.sink = id := same
    exact .inr (List.any_eq_true.2 ⟨creation, listed, Bool.or_eq_true_iff.2
      (.inr (Bool.and_eq_true_iff.2 ⟨decide_eq_true isSource, decide_eq_true isIt⟩))⟩)

theorem Fit.uses_of_isLive {hub : Hub} {id : Id} (h : hub.Fit) (live : hub.isLive id = true) :
    hub.population.Uses id := by
  have sorted : hub.contexts.Sorted := Table.sorted_mapValues.1 h.orderly.sorted
  unfold isLive at live
  rcases Bool.or_eq_true_iff.1 live with live | made
  · rcases Bool.or_eq_true_iff.1 live with reached | member
    · rcases Bool.or_eq_true_iff.1 reached with has | target
      · obtain ⟨c, held⟩ := Option.isSome_iff_exists.1 has
        exact .context (roster_of_held held)
      · obtain ⟨creation, listed, isIt⟩ := List.any_eq_true.1 target
        exact .target (List.mem_map_of_mem listed) (of_decide_eq_true isIt)
    · obtain ⟨⟨x, c⟩, entry, has⟩ := List.any_eq_true.1 member
      obtain ⟨a, here⟩ := Option.isSome_iff_exists.1 has
      exact .member (roster_of_held (Table.get?_of_mem sorted entry)) (Context.member_of_agent here)
  · obtain ⟨creation, listed, isIt⟩ := List.any_eq_true.1 made
    rcases Bool.or_eq_true_iff.1 isIt with same | sink
    · exact .arrival (List.mem_map_of_mem listed) (of_decide_eq_true same)
    · obtain ⟨source, same⟩ := Bool.and_eq_true_iff.1 sink
      exact .sink (List.mem_map_of_mem listed) (of_decide_eq_true source) (of_decide_eq_true same)

/-- The live numbers are those that are in use in the population. -/
theorem Fit.isLive_iff {hub : Hub} (h : hub.Fit) {id : Id} :
    hub.isLive id = true ↔ hub.population.Uses id := ⟨h.uses_of_isLive, isLive_of_uses⟩

/-! ## Histories -/

/-- What is known about several acts. -/
structure Undergoes (hub : Hub) (acts : List Act) (cs : List Change) : Prop where
  run : Population.Run hub.population cs (hub.after acts).population
  tidy : (hub.after acts).Tidy
  draws : hub.ids.Draws (Population.minted cs) (hub.after acts).ids
  minted : minted (hub.journal acts) = Population.minted cs
  said : (∀ m ∈ hub.journal acts, m.Discreet) →
    notices (hub.journal acts) = (gone cs).map partingOf
  kept : (∀ act ∈ acts, act.releases = false) → ∀ x, .released x ∉ cs
  within : (∀ m ∈ hub.journal acts, m.passesQuota = false) → ∀ c ∈ cs, c.passesQuota = false
  removed : (gone cs).map whose = removals (hub.journal acts)
  /-- Whoever is there at some point was there from the beginning or has joined. -/
  seen : ∀ {before rest}, acts = before ++ rest → ∀ {j}, j ∈ (hub.after before).population.present →
    j ∈ hub.population.present ∨ j ∈ joined cs

theorem removals_cons (m : Moment) (rest : List Moment) :
    removals (m :: rest) = m.removal?.toList ++ removals rest := by
  unfold removals
  rw [List.filterMap_cons]
  cases m.removal? <;> rfl

/-- One act and then others. -/
theorem Does.followed_by {hub : Hub} {act : Act} {rest : List Act} {cs ds : List Change}
    (h : hub.Fit) (does : hub.Does act cs) (later : (hub.perform act).hub.Undergoes rest ds) :
    hub.Undergoes (act :: rest) (cs ++ ds) where
  run := does.run.append later.run
  tidy := later.tidy
  draws := by
    rw [Population.minted_append]
    exact does.draws.append later.draws
  minted := by
    rw [Population.minted_append, ← does.minted, ← later.minted]
    rfl
  said discreet := by
    have first := does.said (discreet _ (List.mem_cons_self ..))
    have rest := later.said fun m mem => discreet m (List.mem_cons_of_mem _ mem)
    rw [Population.gone_append, List.map_append, ← first, ← rest]
    rfl
  kept none x mem := by
    rcases List.mem_append.1 mem with now | then_
    · exact does.calm.kept (none act (List.mem_cons_self ..)) x now
    · exact later.kept (fun act mem => none act (List.mem_cons_of_mem _ mem)) x then_
  within none c mem := by
    rcases List.mem_append.1 mem with now | then_
    · exact does.calm.within (none _ (List.mem_cons_self ..)) c now
    · exact later.within (fun m mem => none m (List.mem_cons_of_mem _ mem)) c then_
  removed := by
    rw [Population.gone_append, List.map_append, does.removed, later.removed]
    exact (removals_cons ..).symm
  seen := by
    intro before more split j there
    cases before with
    | nil => exact .inl there
    | cons first before =>
      obtain ⟨rfl, same⟩ := List.cons.inj split
      rw [Population.joined_append]
      rcases later.seen same there with soon | joins
      · exact (h.orderly.present_run does.run soon).imp_right (List.mem_append_left _)
      · exact .inr (List.mem_append_right _ joins)

/-- **What any sequence of acts does to the population of a hub.** -/
theorem Fit.after {hub : Hub} (h : hub.Fit) (acts : List Act) : ∃ cs, hub.Undergoes acts cs := by
  induction acts generalizing hub with
  | nil =>
    refine ⟨[], .nil, h.tidy, IdSource.draws_nil _, rfl, fun _ => rfl, by rintro _ _ ⟨⟩,
      by rintro _ _ ⟨⟩, rfl, fun split _ there => ?_⟩
    obtain ⟨rfl, _⟩ := List.append_eq_nil_iff.1 split.symm
    exact .inl there
  | cons act rest ih =>
    obtain ⟨cs, does⟩ := h.perform act
    obtain ⟨ds, later⟩ := ih (does.fit h)
    exact ⟨cs ++ ds, does.followed_by h later⟩

theorem Undergoes.fit {hub : Hub} {acts : List Act} {cs : List Change} (h : hub.Fit)
    (undergoes : hub.Undergoes acts cs) : (hub.after acts).Fit :=
  ⟨h.orderly.run undergoes.run, undergoes.tidy⟩

/-! ## Sound hubs -/

/-- A hub in which everything is in order, because no live number has been met again. -/
structure Sound (hub : Hub) : Prop extends Fit hub where
  sound : hub.population.Sound

theorem Sound.attached {hub : Hub} (h : hub.Sound) {x : Id} {c : Context}
    (there : hub.context? x = some c) : c.roster.Attached :=
  h.sound.attached (holds_of_context? there)

/-- An act that meets no live number again spares the identities in use. -/
theorem Does.spares {hub : Hub} {act : Act} {cs : List Change} (h : hub.Fit)
    (does : hub.Does act cs) (spares : (hub.moment act).Spares) : hub.population.Spares cs where
  unused id mem uses := by
    rw [← does.minted] at mem
    have dead := spares id mem
    rw [show (hub.moment act).before = hub from rfl, h.isLive_iff.2 uses] at dead
    cases dead
  once := by
    rw [does.draws.taken]
    exact hub.ids.nodup_take (Nat.le_trans does.few (by decide))

/-- **Everything stays in order as long as no live number is met again.** -/
theorem Sound.perform {hub : Hub} (h : hub.Sound) {act : Act} (spares : (hub.moment act).Spares) :
    (hub.perform act).hub.Sound := by
  obtain ⟨cs, does⟩ := h.toFit.perform act
  exact ⟨does.fit h.toFit, h.sound.run does.run (does.spares h.toFit spares)⟩

theorem Sound.after {hub : Hub} (h : hub.Sound) (acts : List Act)
    (spares : ∀ m ∈ hub.journal acts, m.Spares) : (hub.after acts).Sound := by
  induction acts generalizing hub with
  | nil => exact h
  | cons act rest ih =>
    exact ih (h.perform (spares _ (List.mem_cons_self ..))) fun m mem =>
      spares m (List.mem_cons_of_mem _ mem)

/-! ## New hubs -/

theorem IsFresh.rosters {hub : Hub} (fresh : hub.IsFresh) : hub.population.rosters = [] := by
  show Table.mapValues Context.roster hub.contexts = []
  rw [fresh.contexts]
  rfl

theorem IsFresh.arrivals {hub : Hub} (fresh : hub.IsFresh) : hub.population.arrivals = [] := by
  show hub.creations.map Creation.arrival = []
  rw [fresh.creations]
  rfl

/-- Nobody was there before anything happened. -/
theorem IsFresh.present {hub : Hub} (fresh : hub.IsFresh) : hub.population.present = [] := by
  unfold Population.present
  rw [fresh.rosters]
  rfl

theorem IsFresh.sound {hub : Hub} (fresh : hub.IsFresh) : hub.Sound := by
  have sound : hub.population.Sound := by
    refine Population.sound_of_empty fresh.rosters ?_ fresh.arrivals
    show Table.mapValues Context.roster hub.detached = []
    rw [fresh.detached]
    rfl
  refine ⟨⟨sound.toOrderly, ?_⟩, sound⟩
  constructor
  · rw [fresh.contexts]
    rintro _ _ ⟨⟩
  · rw [fresh.detached]
    rintro _ _ ⟨⟩
  · rw [fresh.creations]
    intro _ mem
    cases mem
  · rw [fresh.creations]
    intro _ mem
    cases mem

theorem IsFresh.fit {hub : Hub} (fresh : hub.IsFresh) : hub.Fit := fresh.sound.toFit

/-- Whatever has happened to a hub since it was new, it is in order. -/
theorem IsFresh.fit_after {hub : Hub} (fresh : hub.IsFresh) (acts : List Act) :
    (hub.after acts).Fit := by
  obtain ⟨cs, undergoes⟩ := fresh.fit.after acts
  exact undergoes.fit fresh.fit

/-- As long as no number is handed out twice, no live number is met again: whatever is live was
handed out before. -/
theorem IsFresh.spares_of_nodup {hub : Hub} (fresh : hub.IsFresh) {acts : List Act}
    (once : (minted (hub.journal acts)).Nodup) : ∀ m ∈ hub.journal acts, m.Spares := by
  intro m mem id mints
  obtain ⟨before, act, rest, rfl, rfl⟩ := mem_journal mem
  rw [Bool.eq_false_iff]
  intro live
  obtain ⟨cs, undergoes⟩ := fresh.fit.after before
  rcases fresh.fit.orderly.uses_run undergoes.run
    ((undergoes.fit fresh.fit).uses_of_isLive live) with uses | sooner
  · exact Population.not_uses_of_empty fresh.rosters fresh.arrivals id uses
  · rw [← undergoes.minted] at sooner
    have later : id ∈ minted ((hub.after before).journal (act :: rest)) :=
      List.mem_append_left _ mints
    unfold minted at once sooner later
    rw [journal_append, List.flatMap_append] at once
    exact (List.nodup_append.1 once).2.2 id sooner id later rfl

/-- No act takes more than two numbers. -/
theorem Fit.length_minted {hub : Hub} (h : hub.Fit) (acts : List Act) :
    (minted (hub.journal acts)).length ≤ 2 * acts.length := by
  induction acts generalizing hub with
  | nil => exact Nat.zero_le _
  | cons act rest ih =>
    obtain ⟨cs, does⟩ := h.perform act
    have first := does.few
    rw [← does.minted] at first
    have later := ih (does.fit h)
    show ((hub.moment act).minted ++ minted ((hub.perform act).hub.journal rest)).length ≤ _
    rw [List.length_append, List.length_cons]
    omega

/-- **Numbers come round late**: none is handed out twice by the first 2 ^ 31 - 1 acts. -/
theorem Fit.nodup_minted {hub : Hub} (h : hub.Fit) {acts : List Act}
    (few : acts.length ≤ 2147483647) : (minted (hub.journal acts)).Nodup := by
  obtain ⟨cs, undergoes⟩ := h.after acts
  have length := h.length_minted acts
  rw [undergoes.minted] at length ⊢
  rw [undergoes.draws.taken]
  exact hub.ids.nodup_take (by omega)

/-- So no live number is met again by then. -/
theorem IsFresh.spares_of_few {hub : Hub} (fresh : hub.IsFresh) {acts : List Act}
    (few : acts.length ≤ 2147483647) : ∀ m ∈ hub.journal acts, m.Spares :=
  fresh.spares_of_nodup (fresh.fit.nodup_minted few)

-- a context still has the first number when the last one has been handed out
example : ¬ (({ loopback with ids := ⟨.unassigned⟩, contexts := [(1, { id := 1 })] } : Hub).moment
    (Act.request .sink .unassigned .unassigned)).Spares := by decide

theorem IsFresh.sound_after {hub : Hub} (fresh : hub.IsFresh) {acts : List Act}
    (spares : ∀ m ∈ hub.journal acts, m.Spares) : (hub.after acts).Sound :=
  fresh.sound.after acts spares

end Hub

end CastHub
