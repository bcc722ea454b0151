import CastHub.Proofs.Making
/-!
# What events do to a population

Whoever leaves does so because a context is told that it has finished destroying, and only then
(`Hub.Fit.agentDestroyed`). Every other event adds to the population or begins a teardown, or it
changes nothing of it. `Hub.Fit.deliver` says so of a context that is sent an event, and
`Hub.Fit.handle` of the hub.
-/

namespace CastHub

open Population (gone)

namespace Hub

/-! ## Who is removed -/

theorem holds_of_held {hub : Hub} {x : Id} {c : Context} (held : hub.contexts.get? x = some c)
    (id : Id) : hub.holds x id = c.agents.has id := by
  unfold holds
  rw [held]
  rfl

theorem holds_of_missing {hub : Hub} {x : Id} (missing : hub.contexts.get? x = none) (id : Id) :
    hub.holds x id = false := by
  unfold holds
  rw [missing]
  rfl

theorem removed?_some (hub : Hub) (x id : Id) (isOk : Bool) :
    hub.removed? (some (x, id)) isOk = if hub.holds x id && isOk then some (x, id) else none :=
  Option.filter_some

/-- Nobody is removed from a context that is not held. -/
theorem removed?_of_missing {hub : Hub} {x : Id} (missing : hub.contexts.get? x = none)
    (named : Option Id) (isOk : Bool) : hub.removed? (named.map (x, ·)) isOk = none := by
  cases named with
  | none => rfl
  | some id =>
    rw [Option.map_some, removed?_some, holds_of_missing missing]
    rfl

/-- Nobody is removed if there was a fault. -/
theorem removed?_of_fault (hub : Hub) (named : Option (Id × Id)) :
    hub.removed? named false = none := by
  cases named with
  | none => rfl
  | some k =>
    rw [removed?_some, Bool.and_false]
    rfl

/-- Who is removed by an event that a context is sent. -/
def ended? (hub : Hub) (x : Id) (e : Event) (isOk : Bool) : Option (Id × Id) :=
  hub.removed? (if e.kind = .contextAgentDestroyed then e.agent?.map (x, ·) else none) isOk

theorem ended?_of_ne {hub : Hub} {x : Id} {e : Event} {isOk : Bool}
    (other : e.kind ≠ .contextAgentDestroyed) : hub.ended? x e isOk = none := by
  unfold ended?
  rw [if_neg other]
  rfl

/-! ## Unmaking agents -/

/-- A context that has not been released is held. -/
theorem Fit.held_of_stands {hub : Hub} (h : hub.Fit) {x : Id} {c : Context}
    (there : hub.context? x = some c) (stands : c.destroying = false) :
    hub.contexts.get? x = some c := by
  rcases context?_eq_some there with held | ⟨_, released⟩
  · exact held
  · rw [(h.tidy.released released).2] at stands
    cases stands

/-- A context that takes events in has not been released. -/
theorem Fit.held_of_receive {hub : Hub} (h : hub.Fit) {x : Id} {c c' : Context} {e : Event}
    (there : hub.context? x = some c) (received : c.receive e = .ok c') :
    hub.contexts.get? x = some c :=
  h.held_of_stands there (Context.receive_eq_ok_iff.1 received).1

theorem agents_of_receive {c c' : Context} {e : Event} (received : c.receive e = .ok c') :
    c'.agents = c.agents := by
  obtain ⟨-, rfl⟩ := Context.receive_eq_ok_iff.1 received
  rfl

/-- Nobody leaves: the agent that was named is not here, or it is a sink that was refused its
leave. -/
theorem Fit.nobody_leaves {hub : Hub} (h : hub.Fit) {x : Id} {c c' : Context} {e : Event}
    (held : hub.contexts.get? x = some c) (received : c.receive e = .ok c')
    (leaver : c'.leaver? e = none) {evades : Bool} {n : Nat} :
    hub.Turns evades n (hub.removed? (e.agent?.map (x, ·)) (c'.agentDestroyed e).result.isOk)
      (c'.agentDestroyed e).effects (hub.keep (c'.agentDestroyed e).context) := by
  obtain ⟨same, remains⟩ := Context.roster_receive received
  obtain ⟨still, silent, refused⟩ := Context.agentDestroyed_of_leaver?_eq_none leaver
  have nobody : hub.removed? (e.agent?.map (x, ·)) (c'.agentDestroyed e).result.isOk = none := by
    cases named : e.agent? with
    | none => rfl
    | some id =>
      cases here : c'.agents.has id with
      | true => rw [refused named here, removed?_of_fault]
      | false =>
        rw [Option.map_some, removed?_some, holds_of_held held, ← agents_of_receive received, here]
        rfl
  rw [nobody, still, silent]
  exact (h.keep_same (context?_of_held held) remains same isQuiet_nil).turns_nil

/-- The agent that was named leaves. -/
theorem Fit.leaves {hub : Hub} (h : hub.Fit) {x : Id} {c c' : Context} {e : Event} {a : Agent}
    (held : hub.contexts.get? x = some c) (received : c.receive e = .ok c')
    (leaver : c'.leaver? e = some a) {evades : Bool} {n : Nat} :
    hub.Turns evades n (hub.removed? (e.agent?.map (x, ·)) (c'.agentDestroyed e).result.isOk)
      (c'.agentDestroyed e).effects (hub.keep (c'.agentDestroyed e).context) := by
  obtain ⟨same, remains⟩ := Context.roster_receive received
  have isX : c'.id = x := remains.id.trans (h.tidy.held held).1
  obtain ⟨id, named, found, free⟩ := Context.leaver?_eq_some.1 leaver
  obtain ⟨after, _, ended⟩ := Context.agentDestroyed_of_leaver? named leaver
  have member : c.roster.get? id = some a.member := same ▸ Context.member_of_agent found
  have keyed : a.id = id := ((h.filed held).keyed member).1
  have free : a.member.role = .sink → c.roster.hasSourceOf a.member.id = false := by
    intro isSink
    rw [← same, Context.hasSourceOf_roster]
    show c'.hasSourceOf a.id = false
    rw [keyed]
    exact free isSink
  have present : c.roster.get? a.member.id = some a.member := by
    show c.roster.get? a.id = some a.member
    rw [keyed, member]
  have step : Population.Step hub.population (.left x a.member)
      { hub.population with
        rosters := hub.population.rosters.put x (c.roster.leave a.member) } :=
    .left x c.roster a.member (roster_of_held held) present free
  have left : (c'.agentDestroyed e).context.roster = c.roster.leave a.member := by
    rw [after, Context.roster_afterLeave keyed, same]
  have here : hub.holds x id = true := by
    rw [holds_of_held held, ← agents_of_receive received, Table.has, found]
    rfl
  refine ⟨[.left x a.member], h.keep held (remains.trans (c'.remains_agentDestroyed e)) ?_ rfl ?_,
    calm_singleton (by rintro _ y ⟨⟩) (fun _ => rfl), Nat.zero_le _, ?_⟩
  · rw [left]
    exact .single step
  · intro discreet
    rw [c'.notices_agentDestroyed e discreet, leaver, isX]
    rfl
  · rw [named, ended, Option.map_some, removed?_some, here]
    show [(x, a.id)] = [(x, id)]
    rw [keyed]

/-- **The end of a teardown**: who leaves is the agent that was named, if it was here and could
go. -/
theorem Fit.agentDestroyed {hub : Hub} (h : hub.Fit) {x : Id} {c c' : Context} {e : Event}
    (held : hub.contexts.get? x = some c) (received : c.receive e = .ok c') {evades : Bool}
    {n : Nat} :
    hub.Turns evades n (hub.removed? (e.agent?.map (x, ·)) (c'.agentDestroyed e).result.isOk)
      (c'.agentDestroyed e).effects (hub.keep (c'.agentDestroyed e).context) := by
  cases leaver : c'.leaver? e with
  | none => exact h.nobody_leaves held received leaver
  | some a => exact h.leaves held received leaver

/-- The beginning of a teardown: nobody leaves yet. -/
theorem Fit.destroyAgent {hub : Hub} (h : hub.Fit) {x : Id} {c c' : Context} {e : Event}
    (held : hub.contexts.get? x = some c) (received : c.receive e = .ok c')
    (asks : e.kind.step = .destroy) {evades : Bool} {n : Nat} :
    hub.Turns evades n none (c'.destroyAgent e).effects (hub.keep (c'.destroyAgent e).context) := by
  obtain ⟨same, remains⟩ := Context.roster_receive received
  have remains := remains.trans (c'.remains_destroyAgent e)
  have becomes := c'.roster_destroyAgent asks
  have quiet := c'.quiet_destroyAgent e
  rw [same] at becomes
  cases named : e.agent? with
  | none =>
    rw [named] at becomes
    exact (h.keep_same (context?_of_held held) remains becomes quiet).turns_nil
  | some id =>
    rw [named] at becomes
    have step : Population.Step hub.population (.tornDown x id)
        { hub.population with
          rosters := hub.population.rosters.put x (c.roster.tearDown id) } :=
      .tornDown x id c.roster (roster_of_held held)
    have goes : hub.Goes [.tornDown x id] (c'.destroyAgent e).effects
        (hub.keep (c'.destroyAgent e).context) := by
      refine h.keep held remains ?_ rfl quiet
      rw [becomes]
      exact .single step
    exact goes.turns (by rintro y ⟨⟩) rfl (Nat.zero_le _) fun _ => rfl

/-- Any other event for an agent: nothing changes for others. -/
theorem Fit.distribute {hub : Hub} (h : hub.Fit) {x : Id} {c c' : Context} {e : Event}
    (held : hub.contexts.get? x = some c) (received : c.receive e = .ok c')
    (other : e.kind.step ≠ .destroy) :
    hub.Goes [] (c'.distribute e).effects (hub.keep (c'.distribute e).context) := by
  obtain ⟨same, remains⟩ := Context.roster_receive received
  have sorted : c'.roster.Sorted := same ▸ (h.filed held).sorted
  exact h.keep_same (context?_of_held held) (remains.trans (c'.remains_distribute e))
    ((Context.roster_distribute sorted other).trans same) (c'.quiet_distribute e)

/-- What a context makes of an event that asks for no new agent. -/
theorem Fit.carryOut {hub : Hub} (h : hub.Fit) {x : Id} {c c' : Context} {e : Event}
    (held : hub.contexts.get? x = some c) (received : c.receive e = .ok c') {evades : Bool}
    {n : Nat} :
    hub.Turns evades n (hub.ended? x e (c'.carryOut e).result.isOk) (c'.carryOut e).effects
      (hub.keep (c'.carryOut e).context) := by
  unfold Context.carryOut
  split
  · rename_i kind
    rw [ended?_of_ne (by rw [kind]; decide)]
    exact h.destroyAgent held received (EventKind.step_eq_destroy_iff.2 (.inl kind))
  · rename_i kind
    rw [ended?_of_ne (by rw [kind]; decide)]
    exact h.destroyAgent held received (EventKind.step_eq_destroy_iff.2 (.inr kind))
  · rename_i kind
    unfold ended?
    rw [if_pos kind]
    exact h.agentDestroyed held received
  · rename_i notContext notOwn notEnded
    rw [ended?_of_ne notEnded]
    refine Goes.turns_nil (h.distribute held received fun asks => ?_)
    exact (EventKind.step_eq_destroy_iff.1 asks).elim notContext notOwn

/-- **What becomes of a hub when a context is sent an event.** -/
theorem Fit.deliver {hub : Hub} (h : hub.Fit) {x : Id} {c : Context} (e : Event)
    (there : hub.context? x = some c) {evades : Bool} :
    hub.Turns evades 2 (hub.ended? x e (hub.deliver c e).outcome.isOk) (hub.deliver c e).effects
      (hub.deliver c e).hub := by
  cases hub.deliver_cases c e with
  | refused fault refuses comes =>
    rw [comes]
    show hub.Turns evades 2 (hub.removed? _ false) [] hub
    rw [removed?_of_fault]
    exact h.rests
  | unclear c' received asks comes =>
    have held := h.held_of_receive there received
    rw [ended?_of_ne (by rw [asks]; decide), comes]
    exact (h.keep_received held received).turns_nil
  | begins c' msg received asks asked comes =>
    have held := h.held_of_receive there received
    have kept := h.keep_received held received
    have isX : c'.id = x := (Context.roster_receive received).2.id.trans (h.tidy.held held).1
    have apt : (Origin.event e).IsApt := asks
    rw [ended?_of_ne (by rw [asks]; decide), comes]
    exact (kept.turns_nil (n := 1)).trans
      ((h.goes kept).begin msg (get?_keep held isX) apt (by rintro ⟨⟩))
  | carries c' received other comes =>
    rw [comes]
    exact h.carryOut (h.held_of_receive there received) received

/-! ## Events for the hub -/

/-- The end of a channel takes its sink with it, and the context if it is empty then. -/
theorem Fit.channelDestroyed {hub : Hub} (h : hub.Fit) (e : Event) {evades : Bool} {n : Nat} :
    hub.Turns evades n
      (hub.removed? (e.agent?.map (e.dst, ·)) (hub.channelDestroyed e).outcome.isOk)
      (hub.channelDestroyed e).effects (hub.channelDestroyed e).hub := by
  cases hub.channelDestroyed_cases e with
  | dropped missing comes =>
    rw [comes, removed?_of_missing missing]
    exact h.rests
  | refused c fault held refuses comes =>
    rw [comes, show (Outcome.handled (.error fault) e).isOk = false from rfl, removed?_of_fault]
    exact h.closeIfEmpty c.id
  | ends c c' held received comes =>
    rw [comes]
    have destroyed := @Fit.agentDestroyed hub h _ c c' e held received evades n
    exact destroyed.trans ((h.turned destroyed).closeIfEmpty c'.id) (k := 0)

/-- The context that an agent is made in: one that is there, or a new one. -/
theorem Fit.contextFor {hub hub' : Hub} (h : hub.Fit) {dst : Id} {c : Context} {fresh : Bool}
    (found : hub.contextFor dst = .ok (c, fresh, hub')) :
    (∀ {evades}, hub.Turns evades 1 none [] hub') ∧ hub'.contexts.get? c.id = some c ∧
      ∀ role, hub.hasRoom role = true → hub'.hasRoom role = true := by
  rcases contextFor_eq_ok found with ⟨_, opened⟩ | ⟨_, held, rfl⟩
  · obtain ⟨goes, held, room⟩ := h.openContext opened
    exact ⟨goes.turns (by rintro y ⟨⟩) rfl (Nat.le_refl 1) fun _ => rfl, held, room⟩
  · have isX := (h.tidy.held held).1
    exact ⟨h.rests, isX ▸ held, fun _ room => room⟩

/-- A request for an agent. There was room when it was looked at, and there still is when the agent
begins to be made. -/
theorem Fit.createAgent {hub : Hub} (h : hub.Fit) (e : Event) {evades : Bool} :
    hub.Turns evades 2 none (hub.createAgent e).effects (hub.createAgent e).hub := by
  cases hub.createAgent_cases e with
  | refused fault comes =>
    rw [comes]
    exact h.rests
  | shut c fresh hub' fault found comes =>
    rw [comes]
    exact (h.contextFor found).1.trans (h.turned (@(h.contextFor found).1 evades)).rests (k := 1)
  | begins msg c c' fresh hub' asked room found received comes =>
    obtain ⟨opens, held, still⟩ := h.contextFor found
    have fit : hub'.Fit := h.turned (@opens evades)
    obtain ⟨sameRoster, remains⟩ := Context.roster_receive received
    have kept := fit.keep_received held received
    -- neither a new context nor the event that was taken in uses up any room
    have fits : (hub'.keep c').hasRoom msg.role = true := by
      rw [hasRoom_population, fit.population_keep (context?_of_held held) remains sameRoster,
        ← hasRoom_population, still msg.role room]
    have apt : (Origin.request e fresh).IsApt := ⟨msg, asked⟩
    rw [comes]
    exact opens.trans ((kept.turns_nil (n := 0)).trans
      ((fit.goes kept).begin msg (get?_keep held remains.id) apt fun _ => fits))

/-- A configuration moves the limits, and nothing else that matters to a population. -/
theorem Fit.init {hub : Hub} (h : hub.Fit) (config : Config) {n : Nat} :
    hub.Turns true n none [] (hub.init config) := by
  have goes : hub.Goes [.limited (.ofConfig config)] [] (hub.init config) :=
    ⟨.single (.limited _), h.tidy.fewer rfl rfl (List.Subset.refl _), IdSource.draws_nil _,
      fun _ => rfl⟩
  exact goes.turns (by rintro y ⟨⟩) rfl (Nat.zero_le _) (by rintro ⟨⟩)

theorem Fit.configure {hub : Hub} (h : hub.Fit) (payload : Payload) {n : Nat} :
    hub.Turns true n none [] (hub.configure payload) := by
  unfold Hub.configure
  split
  · split
    · exact h.rests
    · rename_i push _
      exact h.init (hub.config.overlay push)
  · exact h.rests

theorem unmakes?_event (e : Event) : (Act.event e).unmakes?
    = if e.kind = .channelDestroyed ∨ e.kind = .contextAgentDestroyed then e.agent?.map (e.dst, ·)
      else none := rfl

/-- **What an event does to the population of a hub.** -/
theorem Fit.handle {hub : Hub} (h : hub.Fit) (e : Event) :
    hub.Turns (Act.event e).setsLimits 2
      (hub.removed? (Act.event e).unmakes? (hub.handle e).outcome.isOk)
      (hub.handle e).effects (hub.handle e).hub := by
  -- the hub's own events remove nobody, but for the end of a channel
  have nobody : e.kind ≠ .channelDestroyed → e.kind ≠ .contextAgentDestroyed →
      ∀ isOk, hub.removed? (Act.event e).unmakes? isOk = none := by
    intro channel agent isOk
    rw [unmakes?_event, if_neg (not_or.2 ⟨channel, agent⟩)]
    rfl
  -- an event for a context removes whom the context removes
  have named : e.kind ≠ .channelDestroyed →
      ∀ isOk, hub.removed? (Act.event e).unmakes? isOk = hub.ended? e.dst e isOk := by
    intro channel isOk
    unfold ended?
    rw [unmakes?_event]
    simp only [channel, false_or]
  cases hub.handle_cases e with
  | configures kind comes =>
    have sets : (Act.event e).setsLimits = true := decide_eq_true kind
    rw [nobody (by rw [kind]; decide) (by rw [kind]; decide), sets, comes]
    exact h.configure e.payload
  | full fault kind comes =>
    rw [nobody (by rw [kind]; decide) (by rw [kind]; decide), comes]
    exact h.rests
  | opens c hub' kind opened comes =>
    rw [nobody (by rw [kind]; decide) (by rw [kind]; decide), comes]
    exact (h.openContext opened).1.turns (by rintro y ⟨⟩) rfl (Nat.le_succ 1) fun _ => rfl
  | creates kind comes =>
    rw [nobody (by rw [kind]; decide) (by rw [kind]; decide), comes]
    exact h.createAgent e
  | ends kind comes =>
    rw [unmakes?_event, if_pos (.inl kind), comes]
    exact h.channelDestroyed e
  | dropped notAgent notChannel missing comes =>
    have nobodyThere : ∀ isOk, hub.ended? e.dst e isOk = none := by
      intro isOk
      unfold ended?
      split
      · exact removed?_of_missing missing _ _
      · rfl
    rw [named notChannel, comes, nobodyThere]
    exact h.rests
  | delivers c notAgent notChannel held comes =>
    rw [named notChannel, comes]
    exact h.deliver e (context?_of_held held)

end Hub

end CastHub
