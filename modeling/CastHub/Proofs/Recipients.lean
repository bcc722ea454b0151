import CastHub.Proofs.Address
/-!
# Who is told that an agent is gone

Somebody asks for the destruction of an agent. When the agent has gone, its context tells the client
that was named to it last (`Hub.notices_go_to_the_latest_client`). That is whoever asked, as long as
nobody else says anything to the context meanwhile; otherwise the notice goes astray
(`Hub.a_notice_goes_astray`). Only a source that ends at once is safe: the event by which its
context lets it go names the client that asked (`Hub.prompt_sources_are_announced_rightly`).

* `latest` : the client that is named to a context last during a run;
* `Hub.Fit.held_after` : the context remembers that one;
* `Hub.Fit.notice_of_removal` : whoever is removed is announced.
-/

namespace CastHub

/-- The client that is named to the context `x` at a moment. -/
def Moment.named? (m : Moment) (x : Id) : Option Id := namedTo (m.before.heard? m.act) x

/-- The client that is named to the context `x` last during a run, or the one that was named before
it. -/
def latest (journal : List Moment) (x client : Id) : Id :=
  journal.foldl (fun client m => (m.named? x).getD client) client

/-- Whether an agent is being destroyed, if it is in a context that the hub holds. -/
def Hub.destroying? (hub : Hub) (x id : Id) : Option Bool :=
  ((hub.contexts.get? x).bind (·.agents.get? id)).map (·.destroying)

/-- A client's request begins the teardown of an agent. -/
structure Moment.Condemns (m : Moment) (client x id : Id) : Prop where
  asks : m.named? x = some client
  alive : m.before.destroying? x id = some false
  doomed : m.turn.hub.destroying? x id = some true

/-- The notice that an agent is gone, from its context to a client. -/
def goneNotice (client x id : Id) (role : Role) : Event :=
  { kind := .noticeDestroyed, sender := .context, target := .interaction, src := x, dst := client,
    payload := Context.partingNotice x id role }

namespace Act

/-- The media channel has ended the channel of a sink. -/
def channelEnded (context sink : Id) : Act :=
  .event
    { kind := .channelDestroyed, sender := .mediaChannel, target := .hub, dst := context,
      payload := .agent { agent := sink } }

/-- Another client tells an agent to start. -/
def bargeIn (context agent : Id) : Act :=
  .event
    { kind := .command .start, sender := .interaction, target := .hub, src := 2, dst := context,
      payload := .agent { agent } }

/-- The ways in which the context `x` is told that an agent of it has ended. -/
inductive Ends (x id : Id) : Act → Prop
  | channel {e : Event} (kind : e.kind = .channelDestroyed) (dst : e.dst = x)
    (names : e.agent? = some id) : Ends x id (.event e)
  | agent {e : Event} (kind : e.kind = .contextAgentDestroyed) (dst : e.dst = x)
    (names : e.agent? = some id) : Ends x id (.event e)
  | direct {e : Event} (kind : e.kind = .contextAgentDestroyed)
    (names : e.agent? = some id) : Ends x id (.contextEvent x e)

/-- Nobody is unmade in any other way. -/
theorem ends_of_unmakes {act : Act} {x id : Id} (unmakes : act.unmakes? = some (x, id)) :
    act.Ends x id := by
  have named : ∀ {y : Id} {e : Event}, e.agent?.map (y, ·) = some (x, id) →
      y = x ∧ e.agent? = some id := by
    intro y e names
    obtain ⟨_, isIt, same⟩ := Option.map_eq_some_iff.1 names
    obtain ⟨rfl, rfl⟩ := Prod.mk.inj same
    exact ⟨rfl, isIt⟩
  unfold unmakes? at unmakes
  split at unmakes
  · split at unmakes
    · rename_i kind
      obtain ⟨dst, names⟩ := named unmakes
      exact kind.elim (.channel · dst names) (.agent · dst names)
    · cases unmakes
  · split at unmakes
    · rename_i kind
      obtain ⟨rfl, names⟩ := named unmakes
      exact .direct kind names
    · cases unmakes
  · cases unmakes

end Act

/-- If nobody else is named, nobody else is the latest. -/
theorem latest_of_only {journal : List Moment} {x client : Id}
    (only : ∀ m ∈ journal, ∀ other, m.named? x = some other → other = client) :
    latest journal x client = client := by
  induction journal with
  | nil => rfl
  | cons m rest ih =>
    obtain ⟨here, later⟩ := List.forall_mem_cons.1 only
    have still : (m.named? x).getD client = client := by
      cases named : m.named? x with
      | none => rfl
      | some other => exact here other named
    show latest rest x ((m.named? x).getD client) = client
    rw [still]
    exact ih later

namespace Hub

variable {hub : Hub}

/-- **Whom a context remembers.** A context that is held after a run, and whose number is not handed
out on the way, was held before it, and remembers whoever was named to it last. -/
theorem Fit.held_after (h : hub.Fit) {acts : List Act} {x : Id} {c' : Context}
    (once : x ∉ minted (hub.journal acts)) (later : (hub.after acts).contexts.get? x = some c') :
    ∃ c, hub.contexts.get? x = some c ∧
      c'.interaction = latest (hub.journal acts) x c.interaction := by
  induction acts generalizing hub with
  | nil => exact ⟨c', later, rfl⟩
  | cons act rest ih =>
    obtain ⟨notNow, notLater⟩ := not_or.1 fun mints => once (List.mem_append.2 mints)
    obtain ⟨cs, does⟩ := h.perform act
    obtain ⟨d, between, named⟩ := ih (does.fit h) notLater later
    obtain ⟨c, held, now⟩ := (h.heeds_perform act).held notNow between
    exact ⟨c, held, by rw [named, now]; rfl⟩

/-! ## Whoever is removed is announced -/

/-- A context that lets an agent go says so. -/
theorem Context.notice_of_leave {c : Context} {e : Event} {id : Id} (names : e.agent? = some id)
    (here : c.agents.has id = true) (lets : (c.agentDestroyed e).result.isOk = true) :
    ∃ a, c.agents.get? id = some a ∧
      .post ((c.agentDestroyed e).context.goneNotice a) ∈ (c.agentDestroyed e).effects := by
  cases leaver : c.leaver? e with
  | none =>
    obtain ⟨_, _, refused⟩ := Context.agentDestroyed_of_leaver?_eq_none leaver
    rw [refused names here] at lets
    cases lets
  | some a =>
    obtain ⟨id', names', found, _⟩ := Context.leaver?_eq_some.1 leaver
    obtain rfl := Option.some.inj (names.symm.trans names')
    obtain ⟨same, effects, _⟩ := Context.agentDestroyed_of_leaver? names leaver
    refine ⟨a, found, ?_⟩
    rw [same, effects]
    exact List.mem_append_right _ (List.mem_singleton.2 rfl)

/-- A context that is held, and is told that an agent has ended, sees to it. -/
theorem Fit.deliver_ended (h : hub.Fit) {x : Id} {c : Context} {e : Event}
    (held : hub.contexts.get? x = some c) (kind : e.kind = .contextAgentDestroyed) :
    ∃ d, c.receive e = .ok d ∧ (hub.deliver c e).effects = (d.agentDestroyed e).effects ∧
      (hub.deliver c e).outcome.isOk = (d.agentDestroyed e).result.isOk := by
  cases hub.deliver_cases c e with
  | refused fault refuses =>
    have missing := h.tidy.missing_of_refused (context?_of_held held) refuses
    rw [held] at missing
    cases missing
  | unclear d received asks =>
    rw [kind] at asks
    cases asks
  | begins d msg received asks =>
    rw [kind] at asks
    cases asks
  | carries d received other comes =>
    have ends : d.carryOut e = d.agentDestroyed e := by simp only [Context.carryOut, kind]
    rw [comes, ends]
    exact ⟨d, received, rfl, rfl⟩

/-- A context that is held, and is told that a channel has ended, sees to it. -/
theorem channelDestroyed_of_held {c : Context} {e : Event} (held : hub.contexts.get? e.dst = some c)
    (isOk : (hub.channelDestroyed e).outcome.isOk = true) :
    ∃ d, c.receive e = .ok d ∧ (d.agentDestroyed e).result.isOk = true ∧
      (d.agentDestroyed e).effects ⊆ (hub.channelDestroyed e).effects := by
  cases hub.channelDestroyed_cases e with
  | dropped missing =>
    rw [held] at missing
    cases missing
  | refused c' fault held' refuses comes =>
    rw [comes] at isOk
    cases isOk
  | ends c' d held' received comes =>
    obtain rfl := Option.some.inj (held.symm.trans held')
    rw [comes] at isOk ⊢
    exact ⟨d, received, isOk, List.subset_append_left ..⟩

/-- Whoever is removed was let go by its context. -/
theorem Fit.lets_go (h : hub.Fit) {act : Act} {x id : Id} {c : Context}
    (removes : (hub.moment act).removal? = some (x, id)) (held : hub.contexts.get? x = some c) :
    ∃ d e, c.receive e = .ok d ∧ e.agent? = some id ∧ (d.agentDestroyed e).result.isOk = true ∧
      (d.agentDestroyed e).effects ⊆ (hub.perform act).effects := by
  obtain ⟨unmakes, there⟩ := Option.filter_eq_some_iff.1 removes
  have isOk : (hub.perform act).isOk = true := (Bool.and_eq_true_iff.1 there).2
  cases Act.ends_of_unmakes unmakes with
  | @channel e kind dst names =>
    subst dst
    have comes : hub.perform (.event e) = (hub.channelDestroyed e).done :=
      congrArg HubTurn.done (handle_of_channelDestroyed hub kind)
    rw [comes] at isOk ⊢
    obtain ⟨d, received, lets, among⟩ := channelDestroyed_of_held held isOk
    exact ⟨d, e, received, names, lets, among⟩
  | @agent e kind dst names =>
    subst dst
    have passes : isForContext e.kind = true := by
      rw [kind]
      rfl
    have comes : hub.perform (.event e) = (hub.deliver c e).done :=
      congrArg HubTurn.done (handle_of_passed_on passes held)
    obtain ⟨d, received, effects, outcome⟩ := h.deliver_ended held kind
    rw [comes] at isOk ⊢
    exact ⟨d, e, received, names, outcome ▸ isOk, effects ▸ List.Subset.refl _⟩
  | @direct e kind names =>
    have comes : hub.perform (.contextEvent x e) = (hub.deliver c e).done := by
      simp only [Hub.perform, context?_of_held held, Option.map_some, Option.getD_some]
    obtain ⟨d, received, effects, outcome⟩ := h.deliver_ended held kind
    rw [comes] at isOk ⊢
    exact ⟨d, e, received, names, outcome ▸ isOk, effects ▸ List.Subset.refl _⟩

/-- **Whoever is removed is announced** to the client that its context then remembers. -/
theorem Fit.notice_of_removal (h : hub.Fit) {act : Act} {x id : Id}
    (removes : (hub.moment act).removal? = some (x, id)) : ∃ c role,
      hub.contexts.get? x = some c ∧
      .post (goneNotice (((hub.moment act).named? x).getD c.interaction) x id role)
        ∈ (hub.perform act).effects := by
  obtain ⟨_, there⟩ := Option.filter_eq_some_iff.1 removes
  have holds : hub.holds x id = true := (Bool.and_eq_true_iff.1 there).1
  obtain ⟨c, held, has⟩ := (Option.any_eq_true _ _).1 holds
  obtain ⟨d, e, received, names, lets, among⟩ := h.lets_go removes held
  have isX : (d.agentDestroyed e).context.id = x :=
    (((Context.roster_receive received).2.trans (d.remains_agentDestroyed e)).id).trans
      (h.tidy.held held).1
  obtain ⟨a, found, announced⟩ :=
    Context.notice_of_leave names (agents_of_receive received ▸ has) lets
  have keyed : a.id = id := by
    have member := Context.member_of_agent (agents_of_receive received ▸ found)
    exact ((h.filed held).keyed member).1
  have isIt : (d.agentDestroyed e).context.goneNotice a
      = goneNotice (d.agentDestroyed e).context.interaction x id a.role := by
    rw [← isX, ← keyed]
    rfl
  have posted := among announced
  rw [isIt] at posted
  obtain ⟨c', there', isFor⟩ := (h.heeds_perform act).told posted
  obtain rfl : c = c' := Option.some.inj ((context?_of_held held).symm.trans there')
  have told := isFor.told rfl
  exact ⟨c, a.role, held, told ▸ posted⟩

/-! ## Who is told -/

/-- **Whom a context speaks to.** Whatever a context that is held sends at the end of a run is for
the client that was named to it last. -/
theorem Fit.isFor_latest (h : hub.Fit) {acts : List Act} {last : Act} {x : Id} {c c' : Context}
    (once : x ∉ minted (hub.journal acts)) (held : hub.contexts.get? x = some c)
    (later : (hub.after acts).contexts.get? x = some c') {e : Event}
    (posted : .post e ∈ ((hub.after acts).perform last).effects) (own : e.src = x) :
    e.IsFor (latest (hub.journal (acts ++ [last])) x c.interaction) := by
  obtain ⟨cs, undergoes⟩ := h.after acts
  obtain ⟨d, there, isFor⟩ := ((undergoes.fit h).heeds_perform last).told posted
  rw [own] at there isFor
  obtain rfl : c' = d := Option.some.inj ((context?_of_held later).symm.trans there)
  obtain ⟨c₀, held₀, remembers⟩ := h.held_after once later
  obtain rfl : c = c₀ := Option.some.inj (held.symm.trans held₀)
  have isLatest : latest (hub.journal (acts ++ [last])) x c.interaction
      = (namedTo ((hub.after acts).heard? last) x).getD c'.interaction := by
    rw [journal_append, latest, List.foldl_append, remembers]
    rfl
  exact isLatest ▸ isFor

/-- A client's request begins the teardown of an agent, and later on somebody speaks for its
context, which is still held: then that is for the client that was named to it last since the
request. -/
theorem Fit.isFor_since (h : hub.Fit) {request last : Act} {between : List Act} {client x id : Id}
    (condemns : (hub.moment request).Condemns client x id)
    (once : x ∉ minted (hub.journal (request :: between))) {c' : Context}
    (later : (hub.after (request :: between)).contexts.get? x = some c') {e : Event}
    (posted : .post e ∈ ((hub.after (request :: between)).perform last).effects) (own : e.src = x) :
    e.IsFor (latest ((hub.perform request).hub.journal (between ++ [last])) x client) := by
  obtain ⟨a, there, _⟩ := Option.map_eq_some_iff.1 condemns.alive
  obtain ⟨c, held, _⟩ := Option.bind_eq_some_iff.1 there
  have isFor := h.isFor_latest once held later posted own
  have asked : ((hub.moment request).named? x).getD c.interaction = client := by
    rw [condemns.asks]
    rfl
  have since : latest (hub.journal (request :: between ++ [last])) x c.interaction
      = latest ((hub.perform request).hub.journal (between ++ [last])) x client := by
    rw [← asked]
    rfl
  exact since ▸ isFor

/-- **Notices go to the latest client.** A client's request begins the teardown of an agent, and at
some later moment the agent is removed. Then its context posts a notice that it is gone; and this
notice, like whatever else the context tells clients at that moment, is addressed to the client that
was named to the context last. That is the one whose request it was if nobody else is named to the
context meanwhile, in whatever order all the rest happens. Numbers come round, so the condition is
that the number of the context is not handed out once more on the way. -/
theorem notices_go_to_the_latest_client (fresh : hub.IsFresh) {before between : List Act}
    {request last : Act} {client x id : Id}
    (condemns : ((hub.after before).moment request).Condemns client x id)
    (once : x ∉ minted ((hub.after before).journal (request :: between)))
    (removes : ((hub.after (before ++ request :: between)).moment last).removal? = some (x, id)) :
    let since := (hub.after (before ++ [request])).journal (between ++ [last])
    let effects := ((hub.after (before ++ request :: between)).perform last).effects
    (∃ role, .post (goneNotice (latest since x client) x id role) ∈ effects) ∧
    (∀ e, .post e ∈ effects → e.src = x → e.target = .interaction →
      e.dst = latest since x client) ∧
    ((∀ m ∈ since, ∀ other, m.named? x = some other → other = client) →
      latest since x client = client) := by
  intro since effects
  have fit := fresh.fit_after before
  have isSince : since = ((hub.after before).perform request).hub.journal (between ++ [last]) := by
    show Hub.journal (hub.after (before ++ [request])) _ = _
    rw [after_append]
    rfl
  have run : hub.after (before ++ request :: between)
      = (hub.after before).after (request :: between) := after_append ..
  obtain ⟨c, role, held, posted⟩ :=
    (fresh.fit_after (before ++ request :: between)).notice_of_removal removes
  have isFor : ∀ {e}, .post e ∈ effects → e.src = x → e.IsFor (latest since x client) := by
    intro e mem own
    rw [isSince]
    exact fit.isFor_since condemns once (run ▸ held) (run ▸ mem) own
  refine ⟨⟨role, ?_⟩, fun e mem own toClient => (isFor mem own).told toClient, latest_of_only⟩
  have told := (isFor posted rfl).told rfl
  exact told ▸ posted

/-- So it is with the sink of a sharing session: the client that wants it gone lets its source go,
then its channel ends, and that client is told. -/
theorem notices_go_to_the_latest_client_after_sharing :
    ∃ role, .post (goneNotice 1 1 2 role) ∈ ((loopback.after (Act.sharing ++
      [Act.say .destroyAgent 1 2, Act.say .contextAgentDestroyed 1 3])).perform
        (Act.channelEnded 1 2)).effects := by
  have condemns :
      ((loopback.after Act.sharing).moment (Act.say .destroyAgent 1 2)).Condemns 1 1 2 :=
    ⟨rfl, rfl, rfl⟩
  have once : 1 ∉ minted ((loopback.after Act.sharing).journal
      (Act.say .destroyAgent 1 2 :: [Act.say .contextAgentDestroyed 1 3])) := by
    decide
  have removes : ((loopback.after (Act.sharing ++
      [Act.say .destroyAgent 1 2, Act.say .contextAgentDestroyed 1 3])).moment
        (Act.channelEnded 1 2)).removal? = some (1, 2) := by
    decide
  exact (notices_go_to_the_latest_client isFresh_loopback condemns once removes).1

/-- **A notice goes astray.** A client makes a sink and asks for its destruction. Before the channel
of the sink has ended, another client tells the sink to start, which is refused; and it is this
other client that is told that the sink is gone. The first one hears nothing of it. -/
theorem a_notice_goes_astray :
    ((loopback.after (Act.sharing.take 3)).moment (Act.say .destroyAgent 1 2)).Condemns 1 1 2 ∧
    ((loopback.after (Act.sharing.take 3 ++ [Act.say .destroyAgent 1 2, Act.bargeIn 1 2])).moment
      (Act.channelEnded 1 2)).removal? = some (1, 2) ∧
    ((loopback.after (Act.sharing.take 3 ++ [Act.say .destroyAgent 1 2, Act.bargeIn 1 2])).perform
      (Act.channelEnded 1 2)).effects = [.post (goneNotice 2 1 2 .sink), .resetAudio] :=
  ⟨⟨rfl, rfl, rfl⟩, by decide, rfl⟩

/-! ## Sources that end at once -/

/-- An event by which the hub hears that an agent has ended is heard by the context that it is
addressed to. -/
theorem named?_of_removal {e : Event} {x id : Id}
    (removes : (hub.moment (.event e)).removal? = some (x, id)) :
    (hub.moment (.event e)).named? x = e.requester? := by
  obtain ⟨unmakes, _⟩ := Option.filter_eq_some_iff.1 removes
  obtain ⟨dst, passed⟩ : e.dst = x ∧ hub.hearer? e = some e.dst := by
    cases Act.ends_of_unmakes unmakes with
    | channel kind dst => exact ⟨dst, hearer?_of_passed (by simp [kind]) (by simp [kind])⟩
    | agent kind dst => exact ⟨dst, hearer?_of_passed (by simp [kind]) (by simp [kind])⟩
  show namedTo ((hub.hearer? e).map (·, e)) x = e.requester?
  rw [passed, dst]
  exact namedTo_self x e

/-- **Sources that end at once are announced rightly.** A client's request begins the teardown of a
source, and the source ends at that very moment, so its context posts the event by which it will be
let go. Then it is the client of the request that is told, whatever is said to the context between
the request and that event. -/
theorem prompt_sources_are_announced_rightly (fresh : hub.IsFresh) {before between : List Act}
    {request : Act} {e : Event} {client x id : Id}
    (condemns : ((hub.after before).moment request).Condemns client x id)
    (posted : .post e ∈ ((hub.after before).perform request).effects) (own : e.src = x)
    (comesBack : e.target = .hub)
    (removes : ((hub.after (before ++ request :: between)).moment (.event e)).removal?
      = some (x, id)) :
    ∃ role, .post (goneNotice client x id role)
      ∈ ((hub.after (before ++ request :: between)).perform (.event e)).effects := by
  obtain ⟨c, _, isFor⟩ := ((fresh.fit_after before).heeds_perform request).told posted
  have asks : namedTo ((hub.after before).heard? request) x = some client := condemns.asks
  rw [own, asks] at isFor
  have names := Event.requester?_of_named (isFor.names comesBack) (namedTo_ne_unassigned asks)
  obtain ⟨d, role, _, announced⟩ :=
    (fresh.fit_after (before ++ request :: between)).notice_of_removal removes
  rw [named?_of_removal removes, names] at announced
  exact ⟨role, announced⟩

end Hub

end CastHub
