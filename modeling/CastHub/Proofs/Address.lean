import CastHub.Proofs.Acts
/-!
# Whom a context speaks to

A context remembers one client: the one that was named to it last, by a request or by an event of
its own that came back to it. Whatever it tells clients goes to that one. So somebody who asks for
an agent's destruction is told that the agent is gone, unless somebody else says anything to the
context meanwhile (`a_notice_goes_astray`).

* `Context.Minds` : what an operation of a context leaves as it was, and whom it speaks to;
* `Hub.heard?` : the context that takes in the event of an act;
* `Hub.Heeds` : the contexts that a hub holds remember whom they did, or who is named to them now;
* `Hub.Fit.heeds_perform` for one act and `Hub.Fit.held_after` for a run of them;
* `Hub.notices_go_to_the_latest_client` : what is true of every notice;
* `Hub.prompt_sources_are_announced_rightly` : what saves the sources that end at once.
-/

namespace CastHub

/-- An event of a context is for a client: to clients it goes to that one, and if it comes back to
the context it names that one. -/
structure Event.IsFor (e : Event) (client : Id) : Prop where
  told : e.target = .interaction → e.dst = client
  names : e.target = .hub → e.payload.contextMsg?.map (·.interaction) = some client

theorem Event.requester?_ne_unassigned {e : Event} {client : Id}
    (asks : e.requester? = some client) : client ≠ .unassigned := by
  simp only [requester?] at asks
  split at asks
  · rename_i named
    exact Option.some.inj asks ▸ named
  · split at asks
    · rename_i sent
      exact Option.some.inj asks ▸ sent.2
    · cases asks

/-- Whoever a context message names is asking. -/
theorem Event.requester?_of_named {e : Event} {client : Id}
    (named : e.payload.contextMsg?.map (·.interaction) = some client)
    (isClient : client ≠ .unassigned) : e.requester? = some client := by
  simp only [requester?, named, Option.getD_some]
  exact if_pos isClient

/-! ## Contexts -/

namespace Context

/-- An operation takes a context to `c'`, which remembers the same client; and every event that is
sent meanwhile is the context's own, and for that client. -/
structure Minds (c c' : Context) (effects : List Effect) : Prop where
  id : c'.id = c.id
  same : c'.interaction = c.interaction
  own : ∀ {e}, .post e ∈ effects → e.src = c.id
  told : ∀ {e}, .post e ∈ effects → e.IsFor c.interaction

theorem Minds.silent {c c' : Context} (id : c'.id = c.id) (same : c'.interaction = c.interaction) :
    c.Minds c' [] where
  id := id
  same := same
  own mem := nomatch mem
  told mem := nomatch mem

theorem Minds.trans {a b c : Context} {effects more : List Effect} (h : a.Minds b effects)
    (h' : b.Minds c more) : a.Minds c (effects ++ more) where
  id := h'.id.trans h.id
  same := h'.same.trans h.same
  own mem := (List.mem_append.1 mem).elim h.own fun later => (h'.own later).trans h.id
  told mem := (List.mem_append.1 mem).elim h.told fun later => h.same ▸ h'.told later

theorem isFor_of_route {c : Context} {m : StatusMsg} {e : Event} (h : c.route m = .ok e) :
    e.IsFor c.interaction := by
  unfold route at h
  split at h
  · obtain rfl := Except.ok.inj h
    exact ⟨nofun, nofun⟩
  · obtain rfl := Except.ok.inj h
    exact ⟨nofun, fun _ => rfl⟩
  · obtain rfl := Except.ok.inj h
    exact ⟨fun _ => rfl, nofun⟩
  · cases h

theorem route_of_post {c : Context} {acts : List AgentAct} {e : Event}
    (mem : .post e ∈ acts.filterMap c.effectOf?) : ∃ m, c.route m = .ok e := by
  obtain ⟨act, _, seen⟩ := List.mem_filterMap.1 mem
  cases act with
  | call s k => cases seen
  | report m =>
    obtain ⟨routed, isOk, same⟩ := Option.map_eq_some_iff.1 seen
    obtain rfl := Effect.post.inj same
    refine ⟨m, ?_⟩
    cases sent : c.route m with
    | error fault =>
      rw [sent] at isOk
      cases isOk
    | ok own =>
      rw [sent] at isOk
      rw [Option.some.inj isOk]

/-- Whatever agents report goes to the client that their context remembers. -/
theorem minds_effects (c c' : Context) (id : c'.id = c.id)
    (same : c'.interaction = c.interaction) (acts : List AgentAct) :
    c.Minds c' (acts.filterMap c.effectOf?) where
  id := id
  same := same
  own mem := by
    obtain ⟨_, routed⟩ := route_of_post mem
    exact src_of_route routed
  told mem := by
    obtain ⟨_, routed⟩ := route_of_post mem
    exact isFor_of_route routed

theorem minds_goneNotice (c : Context) (a : Agent) : c.Minds c [.post (c.goneNotice a)] where
  id := rfl
  same := rfl
  own mem := by
    obtain rfl := Effect.post.inj (List.mem_singleton.1 mem)
    rfl
  told mem := by
    obtain rfl := Effect.post.inj (List.mem_singleton.1 mem)
    exact ⟨fun _ => rfl, nofun⟩

theorem minds_tell (c : Context) (id : Id) (act : Agent → AgentTurn) :
    c.Minds (c.tell id act).context (c.tell id act).effects := by
  unfold tell
  split
  · exact .silent rfl rfl
  · rename_i a _
    exact c.minds_effects { c with agents := c.agents.put id (act a).agent } rfl rfl _

theorem minds_tellRetired (c : Context) (id : Id) (heard : Bool) (act : Agent → AgentTurn) :
    c.Minds (c.tellRetired id heard act).context (c.tellRetired id heard act).effects := by
  unfold tellRetired
  split
  · exact .silent rfl rfl
  · rename_i a _
    exact c.minds_effects { c with retired := c.retired.put id (act a).agent } rfl rfl _

theorem minds_tellAll (c : Context) (act : Agent → AgentTurn) (ids : List Id) :
    c.Minds (c.tellAll act ids).context (c.tellAll act ids).effects := by
  induction ids generalizing c with
  | nil => exact .silent rfl rfl
  | cons id rest ih => exact (c.minds_tell id act).trans (ih _)

theorem minds_destroyAgent (c : Context) (e : Event) :
    c.Minds (c.destroyAgent e).context (c.destroyAgent e).effects := by
  unfold destroyAgent
  split
  · exact .silent rfl rfl
  · split
    · exact .silent rfl rfl
    · rename_i id _ _ a _
      split
      · exact minds_tellAll ..
      · have marks : c.Minds (c.mark id a) [] := .silent rfl rfl
        exact marks.trans (minds_tellAll ..)

theorem minds_settleSink (c : Context) (sink : Id) :
    c.Minds (c.settleSink sink).context (c.settleSink sink).effects := by
  unfold settleSink
  split
  · exact .silent rfl rfl
  · split
    · exact minds_tellAll ..
    · exact .silent rfl rfl

theorem minds_afterLeave (c : Context) (id : Id) (a : Agent) :
    c.Minds (c.afterLeave id a).context (c.afterLeave id a).effects := by
  have leaves : c.Minds (c.retire id a) [] := .silent rfl rfl
  unfold afterLeave
  split
  · exact leaves.trans (minds_settleSink ..)
  · exact leaves

theorem minds_agentDestroyed (c : Context) (e : Event) :
    c.Minds (c.agentDestroyed e).context (c.agentDestroyed e).effects := by
  cases leaver : c.leaver? e with
  | none =>
    obtain ⟨same, silent, _⟩ := agentDestroyed_of_leaver?_eq_none leaver
    rw [same, silent]
    exact .silent rfl rfl
  | some a =>
    obtain ⟨id, named, _, _⟩ := leaver?_eq_some.1 leaver
    obtain ⟨same, effects, _⟩ := agentDestroyed_of_leaver? named leaver
    rw [same, effects]
    exact (c.minds_afterLeave id a).trans (minds_goneNotice _ a)

theorem minds_distribute (c : Context) (e : Event) :
    c.Minds (c.distribute e).context (c.distribute e).effects := by
  unfold distribute
  split
  · exact .silent rfl rfl
  · exact minds_tell ..

/-- **Whom a context speaks to.** Carrying out an event, it speaks to the client that it
remembers. -/
theorem minds_carryOut (c : Context) (e : Event) :
    c.Minds (c.carryOut e).context (c.carryOut e).effects := by
  unfold carryOut
  split
  · exact c.minds_destroyAgent e
  · exact c.minds_destroyAgent e
  · exact c.minds_agentDestroyed e
  · exact c.minds_distribute e

/-- A context remembers whoever an event that it takes in names. -/
theorem interaction_of_receive {c c' : Context} {e : Event} (received : c.receive e = .ok c') :
    c'.interaction = e.requester?.getD c.interaction := by
  obtain ⟨-, rfl⟩ := receive_eq_ok_iff.1 received
  rfl

theorem minds_publish {c c' : Context} {a : Agent} (published : c.publish a = .ok c') :
    c.Minds c' [] := by
  obtain ⟨rfl, _⟩ := publish_eq_ok published
  exact .silent rfl rfl

end Context

/-! ## Hubs -/

/-- The client that an event names to the context `x`, if that is the context that takes it in. -/
def namedTo (heard : Option (Id × Event)) (x : Id) : Option Id :=
  (heard.filter (·.1 = x)).bind (·.2.requester?)

theorem namedTo_self (x : Id) (e : Event) : namedTo (some (x, e)) x = e.requester? := by
  simp [namedTo, Option.filter]

/-- Whoever is named is a client. -/
theorem namedTo_ne_unassigned {heard : Option (Id × Event)} {x client : Id}
    (named : namedTo heard x = some client) : client ≠ .unassigned := by
  obtain ⟨⟨_, e⟩, _, asks⟩ := Option.bind_eq_some_iff.1 named
  exact Event.requester?_ne_unassigned asks

theorem namedTo_of_ne {x y : Id} (apart : x ≠ y) (e : Event) : namedTo (some (x, e)) y = none := by
  simp [namedTo, Option.filter, apart]

namespace Hub

/-- The context that takes an event in: the one that it is addressed to, unless it is the hub's own
or a request for an agent that the hub refuses. -/
def hearer? (hub : Hub) (e : Event) : Option Id :=
  match e.kind with
  | .configure | .createContext => none
  | .createAgent =>
    if e.payload.contextMsg?.any fun msg => hub.hasRoom msg.role then
      (hub.contextFor e.dst).toOption.map (·.1.id)
    else none
  | _ => some e.dst

/-- The event that comes with an act, and the context that takes it in. -/
def heard? (hub : Hub) : Act → Option (Id × Event)
  | .event e => (hub.hearer? e).map (·, e)
  | .contextEvent x e => some (x, e)
  | _ => none

/-- But for contexts that get one of the `new` numbers, the hub holds none afterwards that it did
not hold before. Each remembers the client that it did, unless a client is named to it by the event
that is heard; and every event that is sent is for the client that its context then remembers. -/
structure Heeds (hub : Hub) (new : List Id) (heard : Option (Id × Event)) (effects : List Effect)
    (hub' : Hub) : Prop where
  held : ∀ {x c'}, x ∉ new → hub'.contexts.get? x = some c' →
    ∃ c, hub.contexts.get? x = some c ∧ c'.interaction = (namedTo heard x).getD c.interaction
  told : ∀ {e}, .post e ∈ effects →
    ∃ c, hub.context? e.src = some c ∧ e.IsFor ((namedTo heard e.src).getD c.interaction)

/-- No event is sent. -/
def PostsNothing (effects : List Effect) : Prop := ∀ e, .post e ∉ effects

theorem postsNothing_nil : PostsNothing [] := fun _ mem => nomatch mem

variable {hub hub' : Hub} {new : List Id} {heard : Option (Id × Event)} {effects more : List Effect}

theorem heeds_of_held (same : ∀ {x c}, x ∉ new → hub'.contexts.get? x = some c →
      hub.contexts.get? x = some c)
    (silent : PostsNothing effects) : hub.Heeds new none effects hub' where
  held other later := ⟨_, same other later, rfl⟩
  told mem := absurd mem (silent _)

theorem heeds_of_same (same : hub'.contexts = hub.contexts) (silent : PostsNothing effects) :
    hub.Heeds new none effects hub' :=
  heeds_of_held (fun _ later => same ▸ later) silent

theorem Heeds.refl (hub : Hub) : hub.Heeds new none [] hub := heeds_of_same rfl postsNothing_nil

/-- An event is lost: its context is not held. -/
theorem heeds_of_lost {x : Id} {e : Event} (missing : hub.contexts.get? x = none) :
    hub.Heeds new (some (x, e)) [] hub where
  held {y d} _ later := by
    have apart : x ≠ y := by
      rintro rfl
      rw [missing] at later
      cases later
    refine ⟨d, later, ?_⟩
    rw [namedTo_of_ne apart]
    rfl
  told mem := nomatch mem

/-- Afterwards nobody hears anything. -/
theorem Heeds.trans {mid : Hub} (h : hub.Heeds new heard effects mid)
    (h' : mid.Heeds new none more hub') (silent : PostsNothing more) :
    hub.Heeds new heard (effects ++ more) hub' where
  held other later := by
    obtain ⟨d, between, same⟩ := h'.held other later
    obtain ⟨c, before, named⟩ := h.held other between
    exact ⟨c, before, same.trans named⟩
  told mem := (List.mem_append.1 mem).elim h.told fun later => absurd later (silent _)

/-- Before that nobody hears anything. -/
theorem Heeds.preceded {mid : Hub} (h : mid.Heeds new heard effects hub')
    (h' : hub.Heeds new none [] mid) (silent : PostsNothing effects) :
    hub.Heeds new heard effects hub' where
  held {x c'} other later := by
    obtain ⟨d, between, named⟩ := h.held other later
    obtain ⟨c, before, same⟩ := h'.held other between
    have same : d.interaction = c.interaction := same
    exact ⟨c, before, same ▸ named⟩
  told mem := absurd mem (silent _)

/-! ### Operations -/

theorem postsNothing_closeContext (hub : Hub) (x : Id) : PostsNothing (hub.closeContext x).2 := by
  unfold closeContext
  split
  · exact postsNothing_nil
  · intro e mem
    simp only at mem
    split at mem
    · cases List.mem_singleton.1 mem
    · cases mem

theorem heeds_closeContext (hub : Hub) (x : Id) :
    hub.Heeds new none (hub.closeContext x).2 (hub.closeContext x).1 := by
  refine heeds_of_held (fun _ later => ?_) (postsNothing_closeContext hub x)
  cases held : hub.contexts.get? x with
  | none =>
    rw [closeContext_of_missing held] at later
    exact later
  | some c =>
    rw [(closeContext_of_held held).1] at later
    exact Table.get?_of_get?_erase later

theorem heeds_closeIfEmpty (hub : Hub) (x : Id) :
    hub.Heeds new none (hub.closeIfEmpty x).2 (hub.closeIfEmpty x).1 ∧
      PostsNothing (hub.closeIfEmpty x).2 := by
  rcases hub.closeIfEmpty_cases x with same | ⟨_, _, _, closes⟩
  · rw [same]
    exact ⟨.refl hub, postsNothing_nil⟩
  · rw [closes]
    exact ⟨hub.heeds_closeContext x, hub.postsNothing_closeContext x⟩

theorem heeds_conclude (hub : Hub) (x : Id) (origin : Origin) (result : Except Fault Id) :
    hub.Heeds new none (hub.conclude x origin result).effects (hub.conclude x origin result).hub ∧
      PostsNothing (hub.conclude x origin result).effects := by
  obtain ⟨outcome, _, same | ⟨_, closes⟩⟩ := hub.conclude_cases x origin result
  · rw [same]
    exact ⟨.refl hub, postsNothing_nil⟩
  · rw [closes]
    exact ⟨hub.heeds_closeContext x, hub.postsNothing_closeContext x⟩

theorem heeds_begin (hub : Hub) (c : Context) (msg : ContextMsg) (origin : Origin) :
    hub.Heeds new none (hub.begin c msg origin).effects (hub.begin c msg origin).hub ∧
      PostsNothing (hub.begin c msg origin).effects := by
  cases hub.begin_cases c msg origin with
  | fails ids fault comes used =>
    obtain ⟨heeds, silent⟩ := heeds_conclude ({ hub with ids } : Hub) c.id origin (.error fault)
    rw [comes]
    exact ⟨heeds.preceded (heeds_of_same rfl postsNothing_nil) silent, silent⟩
  | waits blank id ids session sessions new minted known comes =>
    rw [comes]
    exact ⟨heeds_of_same rfl postsNothing_nil, postsNothing_nil⟩

/-- A context takes an event in and is written back. -/
theorem Tidy.heeds_keep (h : hub.Tidy) {x : Id} {c d d' : Context} {e : Event}
    (held : hub.contexts.get? x = some c) (received : c.receive e = .ok d)
    (minds : d.Minds d' effects) : hub.Heeds new (some (x, e)) effects (hub.keep d') := by
  have isX : d.id = x := (Context.roster_receive received).2.id.trans (h.held held).1
  have remembers := Context.interaction_of_receive received
  rw [keep_of_held held (minds.id.trans isX)]
  constructor
  · intro y f _ later
    rw [Table.get?_put] at later
    split at later
    · rename_i same
      obtain rfl := Option.some.inj later
      refine ⟨c, same ▸ held, ?_⟩
      rw [same, namedTo_self, ← remembers]
      exact minds.same
    · rename_i apart
      refine ⟨f, later, ?_⟩
      rw [namedTo_of_ne (Ne.symm apart)]
      rfl
  · intro f mem
    have own : f.src = x := (minds.own mem).trans isX
    refine ⟨c, own ▸ context?_of_held held, ?_⟩
    rw [own, namedTo_self, ← remembers]
    exact minds.told mem

/-- A context, held or released, is written back without having heard anything. -/
theorem Tidy.heeds_rewrite (h : hub.Tidy) {x : Id} {c c' : Context}
    (there : hub.context? x = some c) (minds : c.Minds c' effects) :
    hub.Heeds new none effects (hub.keep c') := by
  have isX : c'.id = x := minds.id.trans (h.id there)
  constructor
  · intro y f _ later
    rcases context?_eq_some there with held | ⟨missing, _⟩
    · rw [keep_of_held held isX] at later
      rcases Table.get?_put_cases later with ⟨rfl, rfl⟩ | before
      · exact ⟨c, held, minds.same⟩
      · exact ⟨f, before, rfl⟩
    · rw [keep_of_missing missing isX] at later
      exact ⟨f, later, rfl⟩
  · intro f mem
    have own : f.src = x := (minds.own mem).trans (h.id there)
    exact ⟨c, own ▸ there, minds.told mem⟩

theorem Tidy.heeds_enlist (h : hub.Tidy) (x : Id) (a : Agent) (origin : Origin) :
    hub.Heeds new none (hub.enlist x a origin).effects (hub.enlist x a origin).hub := by
  cases hub.enlist_cases x a origin with
  | fails fault comes =>
    rw [comes]
    exact (heeds_conclude ..).1
  | joins c c' there published comes =>
    have joins : hub.Heeds new none [] (hub.keep c') :=
      h.heeds_rewrite there (Context.minds_publish published)
    obtain ⟨ends, silent⟩ := heeds_conclude (hub.keep c') x origin (.ok a.id)
    rw [comes]
    exact joins.trans ends silent

/-- The latest agent in the making is taken from the list, and is ready. -/
theorem Tidy.heeds_ready (h : hub.Tidy) {rest : List Creation} (fewer : rest ⊆ hub.creations)
    (x : Id) (a : Agent) (origin : Origin) :
    hub.Heeds new none (({ hub with creations := rest } : Hub).enlist x a origin).effects
      (({ hub with creations := rest } : Hub).enlist x a origin).hub := by
  have tidy : Tidy { hub with creations := rest } := h.fewer rfl rfl fewer
  obtain ⟨held, told⟩ := tidy.heeds_enlist x a origin
  exact ⟨held, told⟩

theorem Tidy.heeds_built (h : hub.Tidy) {t : HubTurn} (built : hub.built = some t) :
    hub.Heeds new none t.effects t.hub := by
  cases built_cases built with
  | waits x a session origin rest latest isSink comes =>
    rw [comes]
    exact heeds_of_same rfl postsNothing_nil
  | joins x a session origin rest latest source comes =>
    rw [comes]
    exact h.heeds_ready (latest ▸ List.subset_cons_self ..) ..

theorem Tidy.heeds_answered (h : hub.Tidy) {answer : Except Fault Event} {t : HubTurn}
    (answered : hub.answered answer = some t) : hub.Heeds new none t.effects t.hub := by
  cases answered_cases answered with
  | fails x a origin rest fault latest comes =>
    obtain ⟨heeds, silent⟩ :=
      heeds_conclude ({ hub with creations := rest } : Hub) x origin (.error fault)
    rw [comes]
    exact heeds.preceded (heeds_of_same rfl postsNothing_nil) silent
  | joins x a origin rest channel latest assigned comes =>
    rw [comes]
    exact h.heeds_ready (latest ▸ List.subset_cons_self ..) ..

theorem Tidy.heeds_overhear (h : hub.Tidy) (x id : Id) (news : SessionNews) :
    hub.Heeds new none (hub.overhear x id news).effects (hub.overhear x id news).hub := by
  unfold Hub.overhear
  split
  · exact .refl hub
  · rename_i c there
    split
    · exact h.heeds_rewrite there (c.minds_tell ..)
    · split
      · exact h.heeds_rewrite there (c.minds_tellRetired ..)
      · exact heeds_of_same rfl postsNothing_nil

/-! ### Events -/

/-- A context that the hub holds refuses nothing. -/
theorem Tidy.missing_of_refused (h : hub.Tidy) {x : Id} {c : Context} {e : Event} {fault : Fault}
    (there : hub.context? x = some c) (refuses : c.receive e = .error fault) :
    hub.contexts.get? x = none := by
  rcases context?_eq_some there with held | ⟨missing, _⟩
  · have released := (Context.receive_eq_error_iff.1 refuses).1
    rw [(h.held held).2] at released
    cases released
  · exact missing

/-- **An event that a context is sent.** -/
theorem Fit.heeds_deliver (h : hub.Fit) {x : Id} {c : Context} (e : Event)
    (there : hub.context? x = some c) :
    hub.Heeds new (some (x, e)) (hub.deliver c e).effects (hub.deliver c e).hub := by
  cases hub.deliver_cases c e with
  | refused fault refuses comes =>
    rw [comes]
    exact heeds_of_lost (h.tidy.missing_of_refused there refuses)
  | unclear d received asks comes =>
    rw [comes]
    exact h.tidy.heeds_keep (h.held_of_receive there received) received (.silent rfl rfl)
  | begins d msg received asks asked comes =>
    have hears : hub.Heeds new (some (x, e)) [] (hub.keep d) :=
      h.tidy.heeds_keep (h.held_of_receive there received) received (.silent rfl rfl)
    obtain ⟨begins, silent⟩ := heeds_begin (hub.keep d) d msg (.event e)
    rw [comes]
    exact hears.trans begins silent
  | carries d received other comes =>
    rw [comes]
    exact h.tidy.heeds_keep (h.held_of_receive there received) received (d.minds_carryOut e)

theorem Fit.heeds_channelDestroyed (h : hub.Fit) (e : Event) :
    hub.Heeds new (some (e.dst, e)) (hub.channelDestroyed e).effects
      (hub.channelDestroyed e).hub := by
  cases hub.channelDestroyed_cases e with
  | dropped missing comes =>
    rw [comes]
    exact heeds_of_lost missing
  | refused c fault held refuses comes =>
    have missing := h.tidy.missing_of_refused (context?_of_held held) refuses
    rw [held] at missing
    cases missing
  | ends c d held received comes =>
    have hears : hub.Heeds new (some (e.dst, e)) (d.agentDestroyed e).effects
        (hub.keep (d.agentDestroyed e).context) :=
      h.tidy.heeds_keep held received (d.minds_agentDestroyed e)
    obtain ⟨closes, silent⟩ := heeds_closeIfEmpty (hub.keep (d.agentDestroyed e).context) d.id
    rw [comes]
    exact hears.trans closes silent

/-- A new context has the number that is handed out for it. -/
theorem heeds_openContext {c : Context} (opened : hub.openContext = .ok (c, hub'))
    (isNew : c.id ∈ new) : hub.Heeds new none [] hub' := by
  obtain ⟨_, id, ids, minted, rfl, rfl⟩ := openContext_eq_ok opened
  refine heeds_of_held (fun other later => ?_) postsNothing_nil
  rcases Table.get?_put_cases later with ⟨rfl, _⟩ | before
  · exact absurd isNew other
  · exact before

/-- The context that an agent is made in: if it is opened for it, its number is handed out. -/
theorem heeds_contextFor {dst : Id} {c : Context} {fresh : Bool}
    (found : hub.contextFor dst = .ok (c, fresh, hub')) {ids : List Id} {later : IdSource}
    (draws : hub'.ids.Draws ids later) (few : ids.length ≤ 1) :
    hub.Heeds (hub.ids.between 2 later) none [] hub' := by
  rcases contextFor_eq_ok found with ⟨_, opened⟩ | ⟨_, _, rfl⟩
  · exact heeds_openContext opened (mem_between_of_opened opened draws few)
  · exact .refl hub'

theorem hearer?_of_own {e : Event} (own : e.kind = .configure ∨ e.kind = .createContext) :
    hub.hearer? e = none := by
  unfold hearer?
  rcases own with kind | kind <;> rw [kind]

theorem hearer?_of_passed {e : Event} (notOwn : ¬ (e.kind = .configure ∨ e.kind = .createContext))
    (notAgent : e.kind ≠ .createAgent) : hub.hearer? e = some e.dst := by
  unfold hearer?
  split
  · rename_i kind
    exact absurd (.inl kind) notOwn
  · rename_i kind
    exact absurd (.inr kind) notOwn
  · rename_i kind
    exact absurd kind notAgent
  · rfl

/-- A request for an agent is heard if it finds room, and a context. -/
theorem hearer?_eq_some {e : Event} (kind : e.kind = .createAgent) {x : Id} :
    hub.hearer? e = some x ↔ ∃ msg c fresh hub', e.payload.contextMsg? = some msg ∧
      hub.hasRoom msg.role = true ∧ hub.contextFor e.dst = .ok (c, fresh, hub') ∧ c.id = x := by
  unfold hearer?
  rw [kind]
  simp only
  constructor
  · intro hears
    split at hears
    · rename_i fits
      obtain ⟨msg, asked, room⟩ := (Option.any_eq_true _ _).1 fits
      obtain ⟨⟨c, fresh, hub'⟩, found, isX⟩ := Option.map_eq_some_iff.1 hears
      refine ⟨msg, c, fresh, hub', asked, room, ?_, isX⟩
      cases sought : hub.contextFor e.dst with
      | error fault =>
        rw [sought] at found
        cases found
      | ok there =>
        rw [sought] at found
        rw [Option.some.inj found]
    · cases hears
  · rintro ⟨msg, c, fresh, hub', asked, room, found, isX⟩
    rw [if_pos ((Option.any_eq_true _ _).2 ⟨msg, asked, room⟩), found]
    exact congrArg some isX

theorem Fit.heeds_createAgent (h : hub.Fit) {e : Event} (kind : e.kind = .createAgent) :
    hub.Heeds (hub.ids.between 2 (hub.createAgent e).hub.ids) ((hub.hearer? e).map (·, e))
      (hub.createAgent e).effects (hub.createAgent e).hub := by
  cases hears : hub.hearer? e with
  | none =>
    cases hub.createAgent_cases e with
    | refused fault comes =>
      rw [comes]
      exact .refl hub
    | shut c fresh hub' fault found comes =>
      rw [comes]
      exact heeds_contextFor found (IdSource.draws_nil _) (Nat.zero_le _)
    | begins msg c d fresh hub' asked room found received comes =>
      have heard := (hearer?_eq_some kind).2 ⟨msg, c, fresh, hub', asked, room, found, rfl⟩
      rw [hears] at heard
      cases heard
  | some x =>
    obtain ⟨msg, c, fresh, hub', asked, room, found, rfl⟩ := (hearer?_eq_some kind).1 hears
    obtain ⟨opens, held, _⟩ := h.contextFor found
    have fit : hub'.Fit := h.turned (@opens true)
    cases received : c.receive e with
    | error fault =>
      have missing := fit.tidy.missing_of_refused (context?_of_held held) received
      rw [held] at missing
      cases missing
    | ok d =>
      obtain ⟨ids, draws, few⟩ := (hub'.keep d).draws_begin d msg (.request e fresh)
      rw [ids_keep] at draws
      obtain ⟨begins, silent⟩ := heeds_begin (hub'.keep d) d msg (.request e fresh)
      rw [createAgent_of_met asked room found received]
      have heard : ∀ {new}, hub'.Heeds new (some (c.id, e)) [] (hub'.keep d) :=
        fit.tidy.heeds_keep held received (.silent rfl rfl)
      exact (heard.preceded (heeds_contextFor found draws few) postsNothing_nil).trans begins silent

theorem contexts_configure (hub : Hub) (payload : Payload) :
    (hub.configure payload).contexts = hub.contexts := by
  unfold configure
  split
  · split <;> rfl
  · rfl

/-- **An event that the hub is sent.** -/
theorem Fit.heeds_handle (h : hub.Fit) (e : Event) :
    hub.Heeds (hub.ids.between 2 (hub.handle e).hub.ids) ((hub.hearer? e).map (·, e))
      (hub.handle e).effects (hub.handle e).hub := by
  by_cases own : e.kind = .configure ∨ e.kind = .createContext
  · rw [hearer?_of_own own]
    rcases own with kind | kind
    · rw [handle_of_configure hub kind]
      exact heeds_of_same (hub.contexts_configure e.payload) postsNothing_nil
    · rcases handle_of_createContext hub kind with ⟨fault, comes⟩ | ⟨c, hub', opened, comes⟩
      · rw [comes]
        exact .refl hub
      · rw [comes]
        exact heeds_openContext opened
          (mem_between_of_opened opened (IdSource.draws_nil _) (Nat.zero_le _))
  · cases hub.handle_cases e with
    | configures kind => exact absurd (.inl kind) own
    | full fault kind => exact absurd (.inr kind) own
    | opens c hub' kind => exact absurd (.inr kind) own
    | creates kind comes =>
      rw [comes]
      exact h.heeds_createAgent kind
    | ends kind comes =>
      rw [comes, hearer?_of_passed own (by rw [kind]; decide)]
      exact h.heeds_channelDestroyed e
    | dropped notAgent notChannel missing comes =>
      rw [comes, hearer?_of_passed own notAgent]
      exact heeds_of_lost missing
    | delivers c notAgent notChannel held comes =>
      rw [comes, hearer?_of_passed own notAgent]
      exact h.heeds_deliver e (context?_of_held held)

/-! ### Acts -/

/-- **Whom the contexts of a hub remember after an act, and whom they speak to meanwhile.** -/
theorem Fit.heeds_perform (h : hub.Fit) (act : Act) :
    hub.Heeds (hub.moment act).minted (hub.heard? act) (hub.perform act).effects
      (hub.perform act).hub := by
  cases hub.perform_cases act with
  | handles e => exact h.heeds_handle e
  | lost x e missing comes =>
    rw [comes]
    exact heeds_of_lost (Option.or_eq_none_iff.1 missing).1
  | delivers x e c there comes =>
    rw [comes]
    exact h.heeds_deliver e there
  | unbuilt comes =>
    rw [comes]
    exact .refl hub
  | builds t made comes =>
    rw [comes]
    exact h.tidy.heeds_built made
  | unanswered answer comes =>
    rw [comes]
    exact .refl hub
  | answers answer t made comes =>
    rw [comes]
    exact h.tidy.heeds_answered made
  | overhears x id news => exact h.tidy.heeds_overhear x id news
  | registers className cls => exact heeds_of_same rfl postsNothing_nil
  | starts config => exact heeds_of_same rfl postsNothing_nil
  | closes x => exact hub.heeds_closeContext x

end Hub

end CastHub
