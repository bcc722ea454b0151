import CastHub.Proofs.HubSpeech
import CastHub.Proofs.Quotas
import CastHub.Proofs.Teardown
/-!
# What becomes of the agents at a hub

Whatever happens to a hub, each of its contexts is afterwards what has become of a context that was
there before, or it has just been opened and nobody is in it, or an agent that was in the making has
joined it (`Hub.Fate`, `Hub.Fit.fate_perform`). Hence, for whole histories:

* `Hub.Fit.persists_after` : whoever is in a context was in it, and remains who it is, with its
  session, if it was not in the making and its number has not been handed out meanwhile;
* `Hub.IsFresh.manned_after` : every agent in a context has a session;
* `Hub.Sound.remembers_perform` : whoever has left a context was the only one of its identity, as
  long as no number is handed out twice.
-/

namespace CastHub

namespace Context

variable {c : Context}

/-- Whoever is found after several entries were set was set, or was there. -/
theorem get?_foldl_put {entries table : Table Id Agent} {id : Id} {b : Agent}
    (there : Table.get? (entries.foldl (fun table e => table.put e.1 e.2) table) id = some b) :
    (id, b) ∈ entries ∨ table.get? id = some b := by
  induction entries generalizing table with
  | nil => exact .inr there
  | cons e rest ih =>
    rcases ih there with later | now
    · exact .inl (List.mem_cons_of_mem _ later)
    · rcases Table.get?_put_cases now with ⟨rfl, rfl⟩ | before
      · exact .inl (List.mem_cons_self ..)
      · exact .inr before

/-- When a context is released, everybody leaves. -/
theorem evolves_release (sorted : c.agents.Sorted) : c.Evolves c.release where
  id := rfl
  agents there := by cases there
  retired left := by
    rcases get?_foldl_put left with here | before
    · exact ⟨_, .inl (Table.get?_of_mem sorted here), .refl _⟩
    · exact ⟨_, .inr before, .refl _⟩

theorem evolves_tell (id : Id) {act : Agent → AgentTurn}
    (each : ∀ a : Agent, a.Persists (act a).agent) : c.Evolves (c.tell id act).context := by
  unfold tell
  split
  · exact .refl c
  · rename_i a here
    exact evolves_put here (each a)

theorem evolves_tellRetired (id : Id) (heard : Bool) {act : Agent → AgentTurn}
    (each : ∀ a : Agent, a.Persists (act a).agent) :
    c.Evolves (c.tellRetired id heard act).context := by
  unfold tellRetired
  split
  · exact .refl c
  · rename_i a left
    refine ⟨rfl, fun here => ⟨_, here, .refl _⟩, fun there => ?_⟩
    rcases Table.get?_put_cases there with ⟨rfl, rfl⟩ | before
    · exact ⟨a, .inr left, each a⟩
    · exact ⟨_, .inr before, .refl _⟩

end Context

theorem Agent.isSome_of_persists {a b : Agent} (persists : a.Persists b)
    (manned : a.session.isSome = true) : b.session.isSome = true := by
  obtain ⟨s, has⟩ := Option.isSome_iff_exists.1 manned
  obtain ⟨t, has', _⟩ := persists.session_some has
  rw [has']
  rfl

/-- An agent that waits for its channel only has its session. -/
def Creation.IsManned (creation : Creation) : Prop :=
  creation.awaited = .channel → creation.agent.session.isSome = true

namespace Hub

/-! ## Contexts that nobody joins -/

/-- A later context `c'`, under the identity `x`, that nobody has joined: it has become of the one
that was there, or it has just been opened. -/
inductive Evolved (hub : Hub) (x : Id) (c' : Context) : Prop
  | opened (nobody : ∀ id, c'.agents.get? id = none ∧ c'.retired.get? id = none)
  | evolved (c : Context) (there : hub.context? x = some c) (evolves : c.Evolves c')

/-- Nobody joins any context. -/
structure Evolves (hub hub' : Hub) : Prop where
  contexts : ∀ {x c'}, hub'.context? x = some c' → hub.Evolved x c'

variable {hub hub' : Hub}

theorem Evolves.refl (hub : Hub) : hub.Evolves hub where
  contexts there := .evolved _ there (.refl _)

theorem Evolves.trans {mid : Hub} (h : hub.Evolves mid) (h' : mid.Evolves hub') :
    hub.Evolves hub' where
  contexts there := by
    cases h'.contexts there with
    | opened nobody => exact .opened nobody
    | evolved c between later =>
      cases h.contexts between with
      | opened nobody =>
        refine .opened fun id => ⟨Option.eq_none_iff_forall_ne_some.2 fun b here => ?_,
          Option.eq_none_iff_forall_ne_some.2 fun b left => ?_⟩
        · obtain ⟨a, before, _⟩ := later.agents here
          rw [(nobody id).1] at before
          cases before
        · obtain ⟨a, before | before, _⟩ := later.retired left
          · rw [(nobody id).1] at before
            cases before
          · rw [(nobody id).2] at before
            cases before
      | evolved d before sooner => exact .evolved d before (sooner.trans later)

/-- The same contexts as before. -/
theorem evolves_of_same (contexts : hub'.contexts = hub.contexts)
    (detached : hub'.detached = hub.detached) : hub.Evolves hub' where
  contexts there := by
    unfold context? at there
    rw [contexts, detached] at there
    exact .evolved _ there (.refl _)

theorem context?_keep {x : Id} {c c' : Context} (there : hub.context? x = some c)
    (same : c'.id = x) (y : Id) :
    (hub.keep c').context? y = if y = x then some c' else hub.context? y := by
  rcases context?_eq_some there with held | ⟨missing, _⟩
  · rw [keep_of_held held same]
    show ((hub.contexts.put x c').get? y).or (hub.detached.get? y) = _
    rw [Table.get?_put]
    split <;> rfl
  · rw [keep_of_missing missing same]
    show (hub.contexts.get? y).or ((hub.detached.put x c').get? y) = _
    rw [Table.get?_put]
    split
    · rename_i isX
      rw [isX, missing]
      rfl
    · rfl

/-- A context is written back after something has been done in it. -/
theorem Tidy.evolves_keep (h : hub.Tidy) {x : Id} {c c' : Context}
    (there : hub.context? x = some c) (evolves : c.Evolves c') : hub.Evolves (hub.keep c') where
  contexts later := by
    rw [context?_keep there (evolves.id.trans (h.id there))] at later
    split at later
    · rename_i isX
      obtain rfl := Option.some.inj later
      exact .evolved c (isX ▸ there) evolves
    · exact .evolved _ later (.refl _)

theorem Fit.agents_sorted (h : hub.Fit) {x : Id} {c : Context}
    (held : hub.contexts.get? x = some c) : c.agents.Sorted :=
  Table.sorted_mapValues.1 (h.filed held).sorted

theorem evolves_closeContext {x : Id}
    (sorted : ∀ {c}, hub.contexts.get? x = some c → c.agents.Sorted) :
    hub.Evolves (hub.closeContext x).1 := by
  cases held : hub.contexts.get? x with
  | none =>
    rw [closeContext_of_missing held]
    exact .refl hub
  | some c =>
    rw [(closeContext_of_held held).1]
    constructor
    intro y c' later
    change ((hub.contexts.erase x).get? y).or ((hub.detached.put x c.release).get? y) = _ at later
    rw [Table.get?_erase, Table.get?_put] at later
    split at later
    · rename_i isX
      obtain rfl := Option.some.inj later
      exact .evolved c (isX ▸ context?_of_held held) (Context.evolves_release (sorted held))
    · exact .evolved _ later (.refl _)

theorem Fit.evolves_closeIfEmpty (h : hub.Fit) (x : Id) : hub.Evolves (hub.closeIfEmpty x).1 := by
  rcases hub.closeIfEmpty_cases x with same | ⟨_, _, _, closes⟩
  · rw [same]
    exact .refl hub
  · rw [closes]
    exact evolves_closeContext h.agents_sorted

theorem evolves_openContext {c : Context} (opened : hub.openContext = .ok (c, hub')) :
    hub.Evolves hub' := by
  obtain ⟨_, id, ids, _, rfl, rfl⟩ := openContext_eq_ok opened
  constructor
  intro y c' later
  change ((hub.contexts.put id { id }).get? y).or (hub.detached.get? y) = _ at later
  rw [Table.get?_put] at later
  split at later
  · obtain rfl := Option.some.inj later
    exact .opened fun _ => ⟨rfl, rfl⟩
  · exact .evolved _ later (.refl _)

theorem evolves_contextFor {dst : Id} {c : Context} {fresh : Bool}
    (found : hub.contextFor dst = .ok (c, fresh, hub')) : hub.Evolves hub' := by
  rcases contextFor_eq_ok found with ⟨_, opened⟩ | ⟨_, _, rfl⟩
  · exact evolves_openContext opened
  · exact .refl hub'

theorem evolves_configure (hub : Hub) (payload : Payload) :
    hub.Evolves (hub.configure payload) := by
  unfold Hub.configure
  split
  · split
    · exact .refl hub
    · exact evolves_of_same rfl rfl
  · exact .refl hub

/-! ## Operations -/

theorem Fit.evolves_conclude (h : hub.Fit) (contexts : hub'.contexts = hub.contexts)
    (detached : hub'.detached = hub.detached) (x : Id) (origin : Origin)
    (result : Except Fault Id) : hub.Evolves (hub'.conclude x origin result).hub := by
  have same := evolves_of_same contexts detached
  obtain ⟨_, _, stays | ⟨_, closes⟩⟩ := hub'.conclude_cases x origin result
  · rw [stays]
    exact same
  · rw [closes]
    exact same.trans (evolves_closeContext fun held => h.agents_sorted (contexts ▸ held))

theorem Fit.evolves_begin (h : hub.Fit) (c : Context) (msg : ContextMsg) (origin : Origin) :
    hub.Evolves (hub.begin c msg origin).hub := by
  cases hub.begin_cases c msg origin with
  | fails ids fault comes used =>
    rw [comes]
    exact @Fit.evolves_conclude hub { hub with ids } h rfl rfl ..
  | waits blank id ids session sessions new minted known comes =>
    rw [comes]
    exact evolves_of_same rfl rfl

/-- A context that is held takes an event in and sees to it. -/
theorem Fit.evolves_spoken (h : hub.Fit) {x : Id} {c d c' : Context} {e : Event}
    (there : hub.context? x = some c) (received : c.receive e = .ok d)
    (evolves : d.Keyed → d.Evolves c') : hub.Evolves (hub.keep c') := by
  have takes := Context.evolves_receive received
  exact h.tidy.evolves_keep there (takes.trans (evolves (takes.keyed (h.keyed there))))

theorem Fit.evolves_deliver (h : hub.Fit) {x : Id} {c : Context} (e : Event)
    (there : hub.context? x = some c) : hub.Evolves (hub.deliver c e).hub := by
  cases hub.deliver_cases c e with
  | refused fault refuses comes =>
    rw [comes]
    exact .refl hub
  | unclear d received asks comes =>
    rw [comes]
    exact h.evolves_spoken there received fun _ => .refl d
  | begins d msg received asks asked comes =>
    have fit := h.goes (h.keep_received (h.held_of_receive there received) received)
    rw [comes]
    exact (h.evolves_spoken there received fun _ => .refl d).trans (fit.evolves_begin ..)
  | carries d received other comes =>
    rw [comes]
    exact h.evolves_spoken there received fun keyed => (Context.talks_carryOut keyed e).evolves

theorem Fit.evolves_createAgent (h : hub.Fit) (e : Event) :
    hub.Evolves (hub.createAgent e).hub := by
  cases hub.createAgent_cases e with
  | refused fault comes =>
    rw [comes]
    exact .refl hub
  | shut c fresh hub' fault found comes =>
    rw [comes]
    exact evolves_contextFor found
  | begins msg c d fresh hub' asked room found received comes =>
    obtain ⟨opens, held, _⟩ := h.contextFor found
    have fit : hub'.Fit := h.turned (@opens false)
    have keeps := fit.evolves_spoken (context?_of_held held) received fun _ => .refl d
    have begins := (fit.goes (fit.keep_received held received)).evolves_begin d msg
      (.request e fresh)
    rw [comes]
    exact (evolves_contextFor found).trans (keeps.trans begins)

theorem Fit.evolves_channelDestroyed (h : hub.Fit) (e : Event) :
    hub.Evolves (hub.channelDestroyed e).hub := by
  cases hub.channelDestroyed_cases e with
  | dropped missing comes =>
    rw [comes]
    exact .refl hub
  | refused c fault held refuses comes =>
    rw [comes]
    exact h.evolves_closeIfEmpty c.id
  | ends c d held received comes =>
    have destroyed := @Fit.agentDestroyed hub h _ c d e held received false 0
    rw [comes]
    refine Evolves.trans ?_ ((h.turned destroyed).evolves_closeIfEmpty d.id)
    exact h.evolves_spoken (context?_of_held held) received fun keyed =>
      (Context.talks_agentDestroyed keyed e).evolves

theorem Fit.evolves_handle (h : hub.Fit) (e : Event) : hub.Evolves (hub.handle e).hub := by
  cases hub.handle_cases e with
  | configures kind comes => rw [comes]; exact hub.evolves_configure e.payload
  | full fault kind comes => rw [comes]; exact .refl hub
  | opens c hub' kind opened comes => rw [comes]; exact evolves_openContext opened
  | creates kind comes => rw [comes]; exact h.evolves_createAgent e
  | ends kind comes => rw [comes]; exact h.evolves_channelDestroyed e
  | dropped notAgent notChannel missing comes => rw [comes]; exact .refl hub
  | delivers c notAgent notChannel held comes =>
    rw [comes]
    exact h.evolves_deliver e (context?_of_held held)

theorem Fit.evolves_overhear (h : hub.Fit) (x id : Id) (news : SessionNews) :
    hub.Evolves (hub.overhear x id news).hub := by
  have each := fun a : Agent => a.persists_overhear news
  unfold Hub.overhear
  split
  · exact .refl hub
  · rename_i c there
    split
    · exact h.tidy.evolves_keep there (Context.evolves_tell id each)
    · split
      · exact h.tidy.evolves_keep there (Context.evolves_tellRetired id _ each)
      · exact evolves_of_same rfl rfl

/-! ## Acts -/

/-- What a context `c'` is, under the identity `x`, after an act: nobody has joined it, or an agent
has that was in the making and has its session. -/
inductive Fate (hub : Hub) (x : Id) (c' : Context) : Prop
  | evolved (evolved : hub.Evolved x c')
  | joined (c : Context) (creation : Creation) (a : Agent) (there : hub.context? x = some c)
      (listed : creation ∈ hub.creations) (target : creation.context = x)
      (own : a.id = creation.agent.id) (manned : creation.IsManned → a.session.isSome = true)
      (joins : c' = { c with agents := c.agents.put a.id a })

/-- An agent is ready: it joins its context, or nothing comes of it. -/
theorem Fit.fate_enlist (h : hub.Fit) {y : Id} {made : Agent} {awaited : Awaited}
    {origin : Origin} {rest : List Creation}
    (latest : hub.creations = ⟨y, made, awaited, origin⟩ :: rest) {a : Agent} (own : a.id = made.id)
    (manned : Creation.IsManned ⟨y, made, awaited, origin⟩ → a.session.isSome = true) {x : Id}
    {c' : Context}
    (later : (({ hub with creations := rest } : Hub).enlist y a origin).hub.context? x = some c') :
    hub.Fate x c' := by
  have dropped : hub.Evolves { hub with creations := rest } := evolves_of_same rfl rfl
  have fit : Fit { hub with creations := rest } := h.goes (h.drop latest)
  cases ({ hub with creations := rest } : Hub).enlist_cases y a origin with
  | fails fault comes =>
    rw [comes] at later
    have ends := @Fit.evolves_conclude hub { hub with creations := rest } h rfl rfl y origin
      (.error fault)
    exact .evolved (ends.contexts later)
  | joins c d there published comes =>
    obtain ⟨rfl, _⟩ := Context.publish_eq_ok published
    have same : c.id = y := fit.tidy.id there
    have written := @context?_keep { hub with creations := rest } y c
      { c with agents := c.agents.put a.id a } there same x
    rw [comes, hub_conclude_ok, written] at later
    split at later
    · rename_i isX
      obtain rfl := Option.some.inj later
      exact .joined c ⟨y, made, awaited, origin⟩ a (isX ▸ there) (latest ▸ List.mem_cons_self ..)
        isX.symm own manned rfl
    · exact .evolved (dropped.contexts later)

theorem Fit.fate_built (h : hub.Fit) {t : HubTurn} (built : hub.built = some t) {x : Id}
    {c' : Context} (later : t.hub.context? x = some c') : hub.Fate x c' := by
  cases built_cases built with
  | joins y a session origin rest latest source comes =>
    rw [comes] at later
    exact @Fit.fate_enlist hub h y a _ origin rest latest { a with session := some session } rfl
      (fun _ => rfl) x c' later
  | waits y a session origin rest latest isSink comes =>
    rw [comes] at later
    have same : hub.Evolves _ := evolves_of_same rfl rfl
    exact .evolved (same.contexts later)

theorem Fit.fate_answered (h : hub.Fit) {answer : Except Fault Event} {t : HubTurn}
    (answered : hub.answered answer = some t) {x : Id} {c' : Context}
    (later : t.hub.context? x = some c') : hub.Fate x c' := by
  cases answered_cases answered with
  | fails y a origin rest fault latest comes =>
    rw [comes] at later
    have ends := @Fit.evolves_conclude hub { hub with creations := rest } h rfl rfl y origin
      (.error fault)
    exact .evolved (ends.contexts later)
  | joins y a origin rest channel latest assigned comes =>
    rw [comes] at later
    exact @Fit.fate_enlist hub h y a _ origin rest latest { a with channel } rfl
      (fun manned => manned rfl) x c' later

/-- **What becomes of a context when an act takes place.** -/
theorem Fit.fate_perform (h : hub.Fit) (act : Act) {x : Id} {c' : Context}
    (later : (hub.perform act).hub.context? x = some c') : hub.Fate x c' := by
  cases hub.perform_cases act with
  | handles e => exact .evolved ((h.evolves_handle e).contexts later)
  | lost y e missing comes =>
    rw [comes] at later
    exact .evolved ((Evolves.refl hub).contexts later)
  | delivers y e c there comes =>
    rw [comes] at later
    exact .evolved ((h.evolves_deliver e there).contexts later)
  | unbuilt comes =>
    rw [comes] at later
    exact .evolved ((Evolves.refl hub).contexts later)
  | builds t made comes =>
    rw [comes] at later
    exact h.fate_built made later
  | unanswered answer comes =>
    rw [comes] at later
    exact .evolved ((Evolves.refl hub).contexts later)
  | answers answer t made comes =>
    rw [comes] at later
    exact h.fate_answered made later
  | overhears y id news => exact .evolved ((h.evolves_overhear y id news).contexts later)
  | registers className cls =>
    have same : hub.Evolves (hub.perform (.register className cls)).hub := evolves_of_same rfl rfl
    exact .evolved (same.contexts later)
  | starts config =>
    have same : hub.Evolves (hub.perform (.init config)).hub := evolves_of_same rfl rfl
    exact .evolved (same.contexts later)
  | closes y => exact .evolved ((evolves_closeContext h.agents_sorted).contexts later)

/-! ## Whoever is there -/

/-- Whoever joins a context was in the making there. -/
theorem expects_of_listed {creation : Creation} {a : Agent} (listed : creation ∈ hub.creations)
    (own : a.id = creation.agent.id) : hub.population.Expects creation.context a.id :=
  ⟨creation.arrival, List.mem_map_of_mem listed, rfl, own.symm⟩

/-- One act: whoever is in a context, and was not in the making there, was in it. -/
theorem Fit.persists_perform (h : hub.Fit) {x id : Id}
    (unexpected : ¬ hub.population.Expects x id) (act : Act) {c' : Context} {b : Agent}
    (later : (hub.perform act).hub.context? x = some c') (here : c'.agents.get? id = some b) :
    ∃ c a, hub.context? x = some c ∧ c.agents.get? id = some a ∧ a.Persists b := by
  cases h.fate_perform act later with
  | evolved evolved =>
    cases evolved with
    | opened nobody =>
      rw [(nobody id).1] at here
      cases here
    | evolved c there evolves =>
      obtain ⟨a, before, persists⟩ := evolves.agents here
      exact ⟨c, a, there, before, persists⟩
  | joined c creation a there listed target own manned joins =>
    subst joins
    rcases Table.get?_put_cases here with ⟨isIt, _⟩ | before
    · exact absurd (isIt ▸ target ▸ expects_of_listed listed own) unexpected
    · exact ⟨c, b, there, before, .refl b⟩

/-- **Whoever is in a context was in it**, and is still who it was, with its session, if it was not
in the making and its number has not been handed out. -/
theorem Fit.persists_after (h : hub.Fit) {x id : Id} (unexpected : ¬ hub.population.Expects x id)
    {acts : List Act} (once : id ∉ minted (hub.journal acts)) {c' : Context} {b : Agent}
    (later : (hub.after acts).context? x = some c') (here : c'.agents.get? id = some b) :
    ∃ c a, hub.context? x = some c ∧ c.agents.get? id = some a ∧ a.Persists b := by
  induction acts generalizing hub with
  | nil => exact ⟨c', b, later, here, .refl b⟩
  | cons act rest ih =>
    obtain ⟨cs, does⟩ := h.perform act
    have now : id ∉ (hub.moment act).minted := fun mem => once (List.mem_append_left _ mem)
    have still : ¬ (hub.perform act).hub.population.Expects x id := by
      rw [does.minted] at now
      exact fun expects => (does.run.expects expects).elim unexpected now
    obtain ⟨d, a, between, there, sooner⟩ :=
      ih (does.fit h) still (fun mem => once (List.mem_append_right _ mem)) later
    obtain ⟨c, a₀, before, first, soonest⟩ := h.persists_perform unexpected act between there
    exact ⟨c, a₀, before, first, soonest.trans sooner⟩

/-! ## Sessions -/

/-- Every agent in a context has a session, and so has whoever waits for its channel only. -/
structure Manned (hub : Hub) : Prop where
  agents : ∀ {x c id a}, hub.context? x = some c → c.agents.get? id = some a →
    a.session.isSome = true
  creations : ∀ creation ∈ hub.creations, creation.IsManned

/-- Whoever is in the making later was so before, or is not without a session that it needs. -/
structure Mans (hub hub' : Hub) : Prop where
  creations : ∀ creation ∈ hub'.creations, creation ∈ hub.creations ∨ creation.IsManned

theorem mans_of_subset (fewer : hub'.creations ⊆ hub.creations) : hub.Mans hub' :=
  ⟨fun _ mem => .inl (fewer mem)⟩

theorem mans_of_same (same : hub'.creations = hub.creations) : hub.Mans hub' :=
  mans_of_subset (same ▸ List.Subset.refl _)

theorem mans_begin (same : hub'.creations = hub.creations) (c : Context) (msg : ContextMsg)
    (origin : Origin) : hub.Mans (hub'.begin c msg origin).hub := by
  cases hub'.begin_cases c msg origin with
  | fails ids fault comes used =>
    rw [comes]
    exact mans_of_same ((creations_conclude ..).1.trans same)
  | waits blank id ids session sessions new minted known comes =>
    rw [comes]
    refine ⟨fun creation mem => ?_⟩
    rcases List.mem_cons.1 mem with rfl | before
    · exact .inr fun waits => by cases waits
    · exact .inl (same ▸ before)

theorem mans_deliver (hub : Hub) (c : Context) (e : Event) : hub.Mans (hub.deliver c e).hub := by
  cases hub.deliver_cases c e with
  | refused fault refuses comes => rw [comes]; exact mans_of_same rfl
  | unclear d received asks comes => rw [comes]; exact mans_of_same (creations_keep ..)
  | begins d msg received asks asked comes => rw [comes]; exact mans_begin (creations_keep ..) ..
  | carries d received other comes => rw [comes]; exact mans_of_same (creations_keep ..)

theorem mans_handle (hub : Hub) (e : Event) : hub.Mans (hub.handle e).hub := by
  cases hub.handle_cases e with
  | configures kind comes => rw [comes]; exact mans_of_same (creations_configure ..)
  | full fault kind comes => rw [comes]; exact mans_of_same rfl
  | opens c hub' kind opened comes => rw [comes]; exact mans_of_same (creations_openContext opened)
  | creates kind comes =>
    rw [comes]
    cases hub.createAgent_cases e with
    | refused fault asks => rw [asks]; exact mans_of_same rfl
    | shut c fresh hub' fault found asks =>
      rw [asks]
      exact mans_of_same (creations_contextFor found)
    | begins msg c d fresh hub' asked room found received asks =>
      rw [asks]
      exact mans_begin ((creations_keep ..).trans (creations_contextFor found)) ..
  | ends kind comes =>
    rw [comes]
    cases hub.channelDestroyed_cases e with
    | dropped missing ends => rw [ends]; exact mans_of_same rfl
    | refused c fault held refuses ends => rw [ends]; exact mans_of_same (creations_closeIfEmpty ..)
    | ends c d held received ends =>
      rw [ends]
      exact mans_of_same ((creations_closeIfEmpty ..).trans (creations_keep ..))
  | dropped notAgent notChannel missing comes => rw [comes]; exact mans_of_same rfl
  | delivers c notAgent notChannel held comes => rw [comes]; exact hub.mans_deliver c e

/-- Whoever has been waited for has come: one agent less is in the making, or it has its session. -/
theorem mans_built {t : HubTurn} (built : hub.built = some t) : hub.Mans t.hub := by
  cases built_cases built with
  | joins x a session origin rest latest source comes =>
    rw [comes]
    refine mans_of_subset ?_
    rw [(creations_enlist ..).1, latest]
    exact List.subset_cons_self ..
  | waits x a session origin rest latest isSink comes =>
    rw [comes]
    refine ⟨fun creation mem => ?_⟩
    rcases List.mem_cons.1 mem with rfl | before
    · exact .inr fun _ => rfl
    · exact .inl (latest ▸ List.mem_cons_of_mem _ before)

theorem mans_answered {answer : Except Fault Event} {t : HubTurn}
    (answered : hub.answered answer = some t) : hub.Mans t.hub := by
  cases answered_cases answered with
  | fails x a origin rest fault latest comes =>
    rw [comes]
    refine mans_of_subset ?_
    rw [(creations_conclude ..).1, latest]
    exact List.subset_cons_self ..
  | joins x a origin rest channel latest assigned comes =>
    rw [comes]
    refine mans_of_subset ?_
    rw [(creations_enlist ..).1, latest]
    exact List.subset_cons_self ..

theorem Mans.manned (h : hub.Mans hub')
    (manned : ∀ creation ∈ hub.creations, creation.IsManned) :
    ∀ creation ∈ hub'.creations, creation.IsManned := fun creation mem =>
  (h.creations creation mem).elim (manned creation) fun isManned => isManned

/-- News that an agent in the making hears does not cost it its session. -/
theorem isManned_overhear {creation : Creation} (manned : creation.IsManned) (id : Id)
    (news : SessionNews) : (creation.overhear id news).IsManned := by
  unfold Creation.overhear
  split
  · exact manned
  · split
    · intro waits
      show (creation.agent.hear news).1.session.isSome = true
      rw [Agent.session_hear]
      exact manned waits
    · exact manned

theorem manned_overhear (manned : ∀ creation ∈ hub.creations, creation.IsManned) (x id : Id)
    (news : SessionNews) : ∀ creation ∈ (hub.overhear x id news).hub.creations,
      creation.IsManned := by
  unfold Hub.overhear
  split
  · exact manned
  · split
    · exact (mans_of_same (creations_keep ..)).manned manned
    · split
      · exact (mans_of_same (creations_keep ..)).manned manned
      · exact List.forall_mem_map.2 fun creation mem =>
          isManned_overhear (manned creation mem) id news

theorem Manned.creations_perform (manned : hub.Manned) (act : Act) :
    ∀ creation ∈ (hub.perform act).hub.creations, creation.IsManned := by
  have same := manned.creations
  cases hub.perform_cases act with
  | handles e => exact (hub.mans_handle e).manned same
  | lost x e missing comes => exact comes ▸ same
  | delivers x e c there comes => exact comes ▸ (hub.mans_deliver c e).manned same
  | unbuilt comes => exact comes ▸ same
  | builds t made comes => exact comes ▸ (mans_built made).manned same
  | unanswered answer comes => exact comes ▸ same
  | answers answer t made comes => exact comes ▸ (mans_answered made).manned same
  | overhears x id news => exact manned_overhear same x id news
  | registers className cls => exact same
  | starts config => exact same
  | closes x => exact (mans_of_same (creations_closeContext hub x)).manned same

theorem Fit.manned_perform (h : hub.Fit) (manned : hub.Manned) (act : Act) :
    (hub.perform act).hub.Manned where
  creations := manned.creations_perform act
  agents := by
    intro x c' id b later here
    cases h.fate_perform act later with
    | evolved evolved =>
      cases evolved with
      | opened nobody =>
        rw [(nobody id).1] at here
        cases here
      | evolved c there evolves =>
        obtain ⟨a, before, persists⟩ := evolves.agents here
        exact Agent.isSome_of_persists persists (manned.agents there before)
    | joined c creation a there listed _ own hasSession joins =>
      subst joins
      rcases Table.get?_put_cases here with ⟨_, rfl⟩ | before
      · exact hasSession (manned.creations creation listed)
      · exact manned.agents there before

/-- **Every agent in a context has a session**, whatever has happened to the hub. -/
theorem IsFresh.manned_after (fresh : hub.IsFresh) (acts : List Act) : (hub.after acts).Manned := by
  have manned : hub.Manned := by
    constructor
    · intro x c id a there
      unfold context? at there
      rw [fresh.contexts, fresh.detached] at there
      cases there
    · rw [fresh.creations]
      intro _ mem
      cases mem
  have fit := fresh.fit
  clear fresh
  induction acts generalizing hub with
  | nil => exact manned
  | cons act rest ih =>
    obtain ⟨cs, does⟩ := fit.perform act
    exact ih (fit.manned_perform manned act) (does.fit fit)

/-! ## Whoever has left -/

/-- What is known of whoever has left a context, when the numbers `past` have been handed out. It
stands under its own identity, which is nobody else's: nobody of that identity is in the making in
the context, and an agent that is found under it there is of the same role. -/
structure Remembers (hub : Hub) (past : List Id) : Prop where
  used : ∀ {x c id a}, hub.context? x = some c →
    c.agents.get? id = some a ∨ c.retired.get? id = some a → id ∈ past
  expected : ∀ {x id}, hub.population.Expects x id → id ∈ past
  unexpected : ∀ {x c id r}, hub.context? x = some c → c.retired.get? id = some r →
    ¬ hub.population.Expects x id
  keyed : ∀ {x c id r}, hub.context? x = some c → c.retired.get? id = some r → r.id = id
  role : ∀ {x c id r a}, hub.context? x = some c → c.retired.get? id = some r →
    c.agents.get? id = some a → a.role = r.role

/-- What is known of somebody who is in a context, or has left it. -/
theorem Sound.remembered (h : hub.Sound) {past : List Id} (remembers : hub.Remembers past)
    {x id : Id} {c : Context} {a : Agent} (there : hub.context? x = some c)
    (found : c.agents.get? id = some a ∨ c.retired.get? id = some a) :
    ¬ hub.population.Expects x id ∧ a.id = id ∧
      ∀ {b}, c.agents.get? id = some b → b.role = a.role := by
  rcases found with here | left
  · refine ⟨?_, h.keyed there here, fun found => ?_⟩
    · exact h.sound.not_expects (holds_of_context? there) (Context.member_of_agent here)
    · rw [here] at found
      rw [Option.some.inj found]
  · exact ⟨remembers.unexpected there left, remembers.keyed there left,
      remembers.role there left⟩

/-- Whoever is in a context after an act, or has left it, was in it before, or had left it, or was
in the making there. -/
theorem Fit.found_perform (h : hub.Fit) (act : Act) {x id : Id} {c' : Context} {b : Agent}
    (later : (hub.perform act).hub.context? x = some c')
    (found : c'.agents.get? id = some b ∨ c'.retired.get? id = some b) :
    (∃ c a, hub.context? x = some c ∧ (c.agents.get? id = some a ∨ c.retired.get? id = some a)) ∨
      hub.population.Expects x id := by
  cases h.fate_perform act later with
  | evolved evolved =>
    cases evolved with
    | opened nobody =>
      rw [(nobody id).1, (nobody id).2] at found
      exact found.elim (by rintro ⟨⟩) (by rintro ⟨⟩)
    | evolved c there evolves =>
      rcases found with here | left
      · obtain ⟨a, before, _⟩ := evolves.agents here
        exact .inl ⟨c, a, there, .inl before⟩
      · obtain ⟨a, before, _⟩ := evolves.retired left
        exact .inl ⟨c, a, there, before⟩
  | joined c creation a there listed target own manned joins =>
    subst joins
    rcases found with here | left
    · rcases Table.get?_put_cases here with ⟨isIt, _⟩ | before
      · exact .inr (isIt ▸ target ▸ expects_of_listed listed own)
      · exact .inl ⟨c, b, there, .inl before⟩
    · exact .inl ⟨c, b, there, .inr left⟩

/-- Whoever has left a context after an act was in it before, or had left it. -/
theorem Fit.retired_perform (h : hub.Fit) (act : Act) {x id : Id} {c' : Context} {r : Agent}
    (later : (hub.perform act).hub.context? x = some c') (left : c'.retired.get? id = some r) :
    ∃ c a, hub.context? x = some c ∧ (c.agents.get? id = some a ∨ c.retired.get? id = some a) ∧
      a.Persists r := by
  cases h.fate_perform act later with
  | evolved evolved =>
    cases evolved with
    | opened nobody =>
      rw [(nobody id).2] at left
      cases left
    | evolved c there evolves =>
      obtain ⟨a, found, persists⟩ := evolves.retired left
      exact ⟨c, a, there, found, persists⟩
  | joined c creation a there listed target own manned joins =>
    subst joins
    exact ⟨c, r, there, .inr left, .refl r⟩

/-- Nobody is in the making after an act who was not so before, unless its number is handed out. -/
theorem Fit.expects_perform (h : hub.Fit) (act : Act) {x id : Id}
    (expects : (hub.perform act).hub.population.Expects x id) :
    hub.population.Expects x id ∨ id ∈ (hub.moment act).minted := by
  obtain ⟨cs, does⟩ := h.perform act
  rw [does.minted]
  exact does.run.expects expects

/-- **Whoever has left a context is remembered**, if no number is handed out again. -/
theorem Sound.remembers_perform (h : hub.Sound) {past : List Id} (remembers : hub.Remembers past)
    {act : Act} (new : ∀ id ∈ (hub.moment act).minted, id ∉ past) :
    (hub.perform act).hub.Remembers (past ++ (hub.moment act).minted) where
  used later found := by
    rcases h.found_perform act later found with ⟨c, a, there, before⟩ | expects
    · exact List.mem_append_left _ (remembers.used there before)
    · exact List.mem_append_left _ (remembers.expected expects)
  expected expects := by
    rcases h.expects_perform act expects with before | now
    · exact List.mem_append_left _ (remembers.expected before)
    · exact List.mem_append_right _ now
  unexpected later left expects := by
    obtain ⟨c, a, there, found, _⟩ := h.retired_perform act later left
    rcases h.expects_perform act expects with before | now
    · exact (h.remembered remembers there found).1 before
    · exact new _ now (remembers.used there found)
  keyed later left := by
    obtain ⟨c, a, there, found, persists⟩ := h.retired_perform act later left
    exact persists.id.trans (h.remembered remembers there found).2.1
  role later left here := by
    obtain ⟨c, a, there, found, persists⟩ := h.retired_perform act later left
    obtain ⟨unexpected, _, role⟩ := h.remembered remembers there found
    obtain ⟨d, b, there', before, persists'⟩ := h.persists_perform unexpected act later here
    obtain rfl := Option.some.inj (there.symm.trans there')
    exact persists'.role.trans ((role before).trans persists.role.symm)

/-- Nobody has left a context of a new hub. -/
theorem IsFresh.remembers (fresh : hub.IsFresh) : hub.Remembers [] := by
  have nobody : ∀ {x c}, hub.context? x ≠ some c := by
    intro x c there
    unfold context? at there
    rw [fresh.contexts, fresh.detached] at there
    cases there
  refine ⟨fun there => absurd there nobody, ?_, fun there => absurd there nobody,
    fun there => absurd there nobody, fun there => absurd there nobody⟩
  rintro x id ⟨ar, mem, _⟩
  rw [fresh.arrivals] at mem
  cases mem

end Hub

end CastHub
