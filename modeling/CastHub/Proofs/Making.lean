import CastHub.Proofs.Refinement
/-!
# Agents in the making

What the stages in which an agent is made come to for the population: it begins to be made
(`Hub.Fit.begin`), its session is built (`Hub.Fit.built`), its channel is assigned
(`Hub.Fit.answered`), and then it joins its context or nothing comes of it (`Hub.Fit.enlist`).
Nobody leaves meanwhile.
-/

namespace CastHub

namespace Hub

theorem conclude_of_event (hub : Hub) (x : Id) (e : Event) (result : Except Fault Id) :
    ∃ e', (hub.conclude x (.event e) result)
      = { hub, outcome := .handled (result.map fun _ => ()) e' } ∧ e'.kind = e.kind :=
  ⟨_, rfl, rfl⟩

theorem Fit.conclude {hub : Hub} (h : hub.Fit) (x : Id) (origin : Origin)
    (result : Except Fault Id) {evades : Bool} {n : Nat} :
    hub.Turns evades n none (hub.conclude x origin result).effects
      (hub.conclude x origin result).hub := by
  obtain ⟨outcome, _, same | ⟨empty, closes⟩⟩ := hub.conclude_cases x origin result
  · rw [same]
    exact h.rests
  · rw [closes]
    cases held : hub.contexts.get? x with
    | none =>
      rw [closeContext_of_missing held]
      exact h.rests
    | some c =>
      rw [context?_of_held held] at empty
      exact h.closeEmpty held empty

/-! ## The beginning -/

/-- A new agent that a context would have is new, of the role that was asked for, and hangs on a
living sink. -/
theorem blankAgent_eq_ok {c : Context} {msg : ContextMsg} {blank : Id → Agent}
    (filed : c.roster.Filed) (h : c.blankAgent msg = .ok blank) (id : Id) :
    (blank id).id = id ∧ (blank id).role = msg.role ∧
    (blank id).member.who = (blank id).member ∧
    ((blank id).role = .source → ∃ s, c.roster.get? (blank id).sink = some s ∧ s.role = .sink ∧
      s.channel = (blank id).channel) := by
  unfold Context.blankAgent at h
  split at h
  · rename_i role
    obtain rfl := Except.ok.inj h
    exact ⟨rfl, role.symm, rfl, fun source => by cases source⟩
  · rename_i role
    cases alive : c.liveSink msg.sink with
    | error fault =>
      rw [alive] at h
      cases h
    | ok s =>
      rw [alive] at h
      obtain rfl := Except.ok.inj h
      obtain ⟨found, isSink, _⟩ := Context.liveSink_eq_ok alive
      have there := Context.member_of_agent found
      have keyed : s.id = msg.sink := (filed.keyed there).1
      rw [← keyed] at there
      exact ⟨rfl, role.symm, rfl, fun _ => ⟨s.member, there, isSink, rfl⟩⟩

/-- Making an agent takes an identity, and room if the quotas count it. -/
theorem Fit.begun {hub : Hub} (h : hub.Fit) {x : Id} {c : Context} {msg : ContextMsg}
    {blank : Id → Agent} (counted : Bool) (held : hub.contexts.get? x = some c)
    (new : c.blankAgent msg = .ok blank) (room : counted = true → hub.hasRoom msg.role = true) :
    Population.Step hub.population (.begun ⟨x, (blank hub.ids.mint.1).member, counted⟩)
      { hub.population with
        arrivals := ⟨x, (blank hub.ids.mint.1).member, counted⟩ :: hub.population.arrivals } := by
  obtain ⟨isId, role, who, anchored⟩ := blankAgent_eq_ok (h.filed held) new hub.ids.mint.1
  have assigned : (blank hub.ids.mint.1).member.id ≠ .unassigned := by
    show (blank hub.ids.mint.1).id ≠ .unassigned
    rw [isId]
    exact hub.ids.mint_ne_unassigned
  have fits : counted = true → hub.population.inUse (blank hub.ids.mint.1).role
      < hub.population.limits.agents (blank hub.ids.mint.1).role := by
    intro isCounted
    rw [inUse_population, role]
    exact of_decide_eq_true (room isCounted)
  exact .begun ⟨x, (blank hub.ids.mint.1).member, counted⟩ assigned who fits c.roster
    (roster_of_held held) anchored

/-- The number that an agent in the making gets is the one that has been drawn. -/
theorem Fit.draws_begun {hub : Hub} (h : hub.Fit) {x : Id} {c : Context} {msg : ContextMsg}
    {blank : Id → Agent} (held : hub.contexts.get? x = some c) (new : c.blankAgent msg = .ok blank)
    (counted : Bool) :
    hub.ids.Draws (Change.begun ⟨x, (blank hub.ids.mint.1).member, counted⟩).mints
      hub.ids.mint.2 := by
  have isId : (blank hub.ids.mint.1).member.id = hub.ids.mint.1 :=
    (blankAgent_eq_ok (h.filed held) new _).1
  show hub.ids.Draws [(blank hub.ids.mint.1).member.id] _
  rw [isId]
  exact IdSource.draws_mint rfl

/-- An agent begins to be made, or it comes to nothing at once. -/
theorem Fit.begin {hub : Hub} (h : hub.Fit) {x : Id} {c : Context} (msg : ContextMsg)
    {origin : Origin} (held : hub.contexts.get? x = some c) (apt : origin.IsApt)
    (room : origin.isCounted = true → hub.hasRoom msg.role = true) {evades : Bool} :
    hub.Turns evades 1 none (hub.begin c msg origin).effects (hub.begin c msg origin).hub := by
  have isX : c.id = x := (h.tidy.held held).1
  unfold Hub.begin
  rw [isX]
  cases new : c.blankAgent msg with
  | error fault => exact h.conclude x origin _
  | ok blank =>
    have begun := h.begun origin.isCounted held new room
    have draws := h.draws_begun held new origin.isCounted
    cases made : ({ hub with ids := hub.ids.mint.2 } : Hub).newSession? msg.className with
    | none =>
      -- the class is unknown, so the identity is used up for nothing
      have used : hub.Goes
          [.begun ⟨x, (blank hub.ids.mint.1).member, origin.isCounted⟩, .dropped] []
          { hub with ids := hub.ids.mint.2 } :=
        { run := .snoc (.single begun) (.dropped _ _ rfl)
          tidy := h.tidy.fewer rfl rfl (List.Subset.refl _)
          draws := draws
          said := fun _ => rfl }
      have calm : Calm false evades
          ([.begun ⟨x, (blank hub.ids.mint.1).member, origin.isCounted⟩] ++ [.dropped]) := by
        apply Calm.append
        · exact calm_singleton (by rintro _ y ⟨⟩) fun _ => rfl
        · exact calm_singleton (by rintro _ y ⟨⟩) fun _ => rfl
      have turns : hub.Turns evades 1 none [] { hub with ids := hub.ids.mint.2 } :=
        ⟨_, used, calm, Nat.le_refl 1, rfl⟩
      simp only [made]
      exact turns.trans ((h.turned turns).conclude x origin (.error .sessionCreate) (n := 0))
    | some made' =>
      obtain ⟨session, hub'⟩ := made'
      simp only [made]
      obtain ⟨_, sessions, rfl⟩ := newSession?_eq_some made
      refine Goes.turns ⟨.single begun, ?_, draws, fun _ => rfl⟩ (by rintro y ⟨⟩) rfl
        (Nat.le_refl 1) fun _ => rfl
      exact h.tidy.cons rfl rfl rfl (List.Subset.refl _) apt fun waits => by cases waits

/-! ## The end -/

/-- The latest creation comes to nothing. -/
theorem Fit.drop {hub : Hub} (h : hub.Fit) {creation : Creation} {rest : List Creation}
    (latest : hub.creations = creation :: rest) :
    hub.Goes [.dropped] [] { hub with creations := rest } where
  run := by
    have latest : hub.population.arrivals = creation.arrival :: rest.map Creation.arrival :=
      congrArg (List.map Creation.arrival) latest
    exact .single (.dropped _ _ latest)
  tidy := h.tidy.fewer rfl rfl (latest ▸ List.subset_cons_self ..)
  draws := IdSource.draws_nil _
  said _ := rfl

/-- The latest creation fails, and whoever asked for it is told. -/
theorem Fit.fail {hub : Hub} (h : hub.Fit) {creation : Creation} {rest : List Creation}
    (latest : hub.creations = creation :: rest) (x : Id) (origin : Origin) (fault : Fault)
    {t : HubTurn} {evades : Bool} {n : Nat}
    (ends : ({ hub with creations := rest } : Hub).conclude x origin (.error fault) = t) :
    hub.Turns evades n none t.effects t.hub := by
  subst ends
  have dropped := h.drop latest
  exact (dropped.turns (by rintro y ⟨⟩) rfl (Nat.zero_le _) fun _ => rfl).trans (k := 0)
    ((h.goes dropped).conclude x origin (.error fault))

/-- An agent is published at the end of its creation: it joins its context, unless its sink has
begun to go meanwhile. -/
theorem Fit.publish {hub : Hub} (h : hub.Fit) {creation : Creation} {rest : List Creation}
    (latest : hub.creations = creation :: rest) {c c' : Context} {a : Agent}
    (there : hub.context? creation.context = some c) (published : c.publish a = .ok c')
    (ready : a.member.Completes creation.agent.member) {evades : Bool} {n : Nat}
    (counted : evades = false → creation.origin.isCounted = true) :
    hub.Turns evades n none [] (({ hub with creations := rest } : Hub).keep c') := by
  have waiting : hub.population.arrivals = creation.arrival :: rest.map Creation.arrival :=
    congrArg (List.map Creation.arrival) latest
  obtain ⟨joined, remains, welcome⟩ := Context.roster_publish published
  have isX : c'.id = creation.context := remains.id.trans (h.tidy.id there)
  have tidy : (({ hub with creations := rest } : Hub).keep c').Tidy :=
    Tidy.keep (h.goes (h.drop latest)).tidy there remains
  rcases context?_eq_some there with held | ⟨missing, released⟩
  · have step : Population.Step hub.population (.published creation.arrival a.member)
        { hub.population with
          arrivals := rest.map Creation.arrival
          rosters := hub.population.rosters.put creation.context (c.roster.put a.id a.member) } :=
      .published _ _ _ _ waiting (roster_of_held held) ready welcome
    have kept := @population_keep_of_held { hub with creations := rest } _ _ _ held isX
    have goes : hub.Goes [.published creation.arrival a.member] []
        (({ hub with creations := rest } : Hub).keep c') := by
      refine ⟨?_, tidy, ?_, fun _ => rfl⟩
      · rw [kept, joined]
        exact .single step
      · rw [ids_keep]
        exact IdSource.draws_nil _
    refine goes.turns (by rintro y ⟨⟩) rfl (Nat.zero_le _) fun none => ?_
    show (!creation.origin.isCounted) = false
    rw [counted none]
    rfl
  · -- the context has been released meanwhile, but it can still be spoken to
    have gone : hub.population.rosters.get? creation.context = none := by
      rw [get?_rosters, missing]
      rfl
    have step : Population.Step hub.population (.stranded creation.arrival a.member)
        { hub.population with
          arrivals := rest.map Creation.arrival
          detached := hub.population.detached.put creation.context (c.roster.put a.id a.member) } :=
      .stranded _ _ _ _ waiting gone (roster_of_released released) ready welcome
    have kept := @population_keep_of_missing { hub with creations := rest } _ _ missing isX
    have goes : hub.Goes [.stranded creation.arrival a.member] []
        (({ hub with creations := rest } : Hub).keep c') := by
      refine ⟨?_, tidy, ?_, fun _ => rfl⟩
      · rw [kept, joined]
        exact .single step
      · rw [ids_keep]
        exact IdSource.draws_nil _
    exact goes.turns (by rintro y ⟨⟩) rfl (Nat.zero_le _) fun _ => rfl

/-- Only a context that was asked directly makes an agent past the quotas, and its answer says so.
-/
theorem isCounted_of_conclude {hub : Hub} {x id : Id} {origin : Origin} (apt : origin.IsApt)
    (within : (hub.conclude x origin (.ok id)).outcome.evadesQuota = false) :
    origin.isCounted = true := by
  cases origin with
  | direct => exact apt.elim
  | event e =>
    obtain ⟨e', concludes, kind⟩ := conclude_of_event hub x e (.ok id)
    rw [concludes] at within
    have evades : decide (e'.kind = .contextCreateAgent) = false := within
    rw [kind, show e.kind = .contextCreateAgent from apt] at evades
    cases evades
  | request e fresh => rfl

/-- A creation ends: with an agent, or with nothing. -/
theorem Fit.enlist {hub : Hub} (h : hub.Fit) {creation : Creation} {rest : List Creation}
    (latest : hub.creations = creation :: rest) {a : Agent}
    (ready : a.member.Completes creation.agent.member) {t : HubTurn} {n : Nat}
    (ends : ({ hub with creations := rest } : Hub).enlist creation.context a creation.origin = t) :
    hub.Turns t.outcome.evadesQuota n none t.effects t.hub := by
  have cases := ({ hub with creations := rest } : Hub).enlist_cases creation.context a
    creation.origin
  rw [ends] at cases
  cases cases with
  | fails fault comes => exact h.fail latest _ _ _ comes.symm
  | joins c c' there published comes =>
    have apt := h.tidy.apt creation (latest ▸ List.mem_cons_self ..)
    have counted : t.outcome.evadesQuota = false → creation.origin.isCounted = true := by
      rw [comes]
      exact isCounted_of_conclude apt
    have turns := h.publish latest there published ready counted (n := n)
    rw [comes] at turns ⊢
    exact turns.trans ((h.turned turns).conclude creation.context creation.origin (.ok a.id))
      (k := 0)

/-- The session has been built: a source is published, and a sink asks for its channel. -/
theorem Fit.built {hub : Hub} (h : hub.Fit) {t : HubTurn} (built : hub.built = some t) {n : Nat} :
    hub.Turns t.outcome.evadesQuota n none t.effects t.hub := by
  cases built_cases built with
  | joins x agent session origin rest latest source comes =>
    have ready : Member.Completes (Agent.member { agent with session := some session })
        agent.member := by
      refine ⟨rfl, fun isSink => ?_, fun _ => rfl⟩
      have isSink : agent.role = .sink := isSink
      rw [source] at isSink
      cases isSink
    exact @Fit.enlist hub h ⟨x, agent, .session session, origin⟩ rest latest _ ready t n comes.symm
  | waits x agent session origin rest latest isSink comes =>
    -- a sink remains the same arrival, and waits for its channel now
    have apt : origin.IsApt := h.tidy.apt _ (latest ▸ List.mem_cons_self ..)
    have same : hub.population.arrivals = Creation.arrival
        ⟨x, { agent with session := some session }, .channel, origin⟩ ::
          rest.map Creation.arrival := congrArg (List.map Creation.arrival) latest
    rw [comes]
    refine Goes.turns_nil ⟨?_, ?_, IdSource.draws_nil _, fun _ => rfl⟩
    · show Population.Run _ _ { hub.population with arrivals := List.map _ (_ :: rest) }
      rw [List.map_cons, ← same]
      exact .nil
    · exact h.tidy.cons rfl rfl rfl (latest ▸ List.subset_cons_self ..) apt fun _ => isSink

/-- The media channel has answered: a sink is published on its channel, if it has got one. -/
theorem Fit.answered {hub : Hub} (h : hub.Fit) {answer : Except Fault Event} {t : HubTurn}
    (answered : hub.answered answer = some t) {n : Nat} :
    hub.Turns t.outcome.evadesQuota n none t.effects t.hub := by
  cases answered_cases answered with
  | fails x agent origin rest fault latest comes => exact h.fail latest _ _ _ comes.symm
  | joins x agent origin rest channel latest assigned comes =>
    have isSink : agent.role = .sink := h.tidy.waiting _ (latest ▸ List.mem_cons_self ..) rfl
    have ready : Member.Completes (Agent.member { agent with channel }) agent.member := by
      refine ⟨rfl, fun _ => Context.channelOf_ne_unassigned assigned, fun source => ?_⟩
      have source : agent.role = .source := source
      rw [isSink] at source
      cases source
    exact @Fit.enlist hub h ⟨x, agent, .channel, origin⟩ rest latest _ ready t n comes.symm

end Hub

end CastHub
