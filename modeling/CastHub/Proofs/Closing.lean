import CastHub.Proofs.Notices
import CastHub.Proofs.Persistence
/-!
# Which contexts are closed

A hub closes a context only when nobody is left in it, and gives the platform's audio routing back
each time that it closes its last one. In the course of an act it may open a context first
(`Hub.opened`), and it may close one last, so it may come to hold no context at most once then.

* `Hub.Lapses` : what becomes of the contexts that a hub holds;
* `Hub.Fit.lapses_perform` : the contexts that an act closes;
* `Hub.Sound.stays_or_leaves` : whoever was in a context stays in it, or has been removed;
* `Hub.Fit.resets_journal` : how often the audio routing is given back.
-/

namespace CastHub

open Population (gone)

theorem Table.isEmpty_iff_has {κ α : Type} [DecidableEq κ] {table : Table κ α} :
    table.isEmpty = true ↔ ∀ key, table.has key = false := by
  cases table with
  | nil => exact ⟨fun _ _ => rfl, fun _ => rfl⟩
  | cons e rest =>
    constructor
    · intro empty
      cases empty
    · intro nobody
      have there := nobody e.1
      simp [Table.has, Table.get?] at there

/-! ## Coming and going -/

/-- Whether the audio routing is given back. -/
def Effect.isReset : Effect → Bool
  | .resetAudio => true
  | _ => false

/-- How often the audio routing is given back. -/
def resets (effects : List Effect) : Nat := effects.countP (·.isReset)

namespace Hub

/-- The hub right after an act has opened the context that it needs, if it needs one. -/
def opened (hub : Hub) (act : Act) : Hub :=
  match act with
  | .event e =>
    match e.kind with
    | .createContext => hub.openContext.toOption.elim hub (·.2)
    | .createAgent =>
      match e.payload.contextMsg? with
      | none => hub
      | some msg =>
        if hub.hasRoom msg.role then (hub.contextFor e.dst).toOption.elim hub (·.2.2) else hub
    | _ => hub
  | _ => hub

/-- Whether a hub that held contexts holds none any more. -/
def emptied (hub hub' : Hub) : Bool := !hub.contexts.isEmpty && hub'.contexts.isEmpty

/-- How often a hub comes to hold no context in the course of several acts: each of them may open a
context first and close one last. -/
def emptyings (hub : Hub) : List Act → Nat
  | [] => 0
  | act :: rest =>
    (hub.emptied (hub.opened act)).toNat + ((hub.opened act).emptied (hub.perform act).hub).toNat
      + (hub.perform act).hub.emptyings rest

/-- Two hubs hold the same contexts, whatever goes on in them. -/
structure HoldsAlike (hub hub' : Hub) : Prop where
  has : ∀ x, hub'.contexts.has x = hub.contexts.has x

/-- What becomes of the contexts that the hub `start` holds: it goes on holding them, or it closes
one in which nobody is left, at last. -/
inductive Lapses (start hub' : Hub) (effects : List Effect) : Prop
  | stays (alike : start.HoldsAlike hub') (silent : resets effects = 0)
  | closes (mid : Hub) (x : Id) (c : Context) (alike : start.HoldsAlike mid)
      (last : mid.contexts.get? x = some c) (empty : c.isEmpty = true)
      (comes : hub' = (mid.closeContext x).1)
      (gives : resets effects = resets (mid.closeContext x).2)

variable {hub hub' start : Hub}

theorem HoldsAlike.refl (hub : Hub) : hub.HoldsAlike hub := ⟨fun _ => rfl⟩

theorem HoldsAlike.trans {mid : Hub} (h : hub.HoldsAlike mid) (h' : mid.HoldsAlike hub') :
    hub.HoldsAlike hub' := ⟨fun x => (h'.has x).trans (h.has x)⟩

theorem alike_of_same (same : hub'.contexts = hub.contexts) : hub.HoldsAlike hub' :=
  ⟨fun _ => by rw [same]⟩

theorem alike_keep (hub : Hub) (c : Context) : hub.HoldsAlike (hub.keep c) := by
  constructor
  intro x
  unfold keep
  split
  · rename_i held
    show (Table.get? (hub.contexts.put c.id c) x).isSome = (hub.contexts.get? x).isSome
    rw [Table.get?_put]
    split
    · rename_i isIt
      rw [isIt]
      exact held.symm
    · rfl
  · rfl

theorem HoldsAlike.isEmpty (h : hub.HoldsAlike hub') :
    hub'.contexts.isEmpty = hub.contexts.isEmpty := by
  rw [Bool.eq_iff_iff, Table.isEmpty_iff_has, Table.isEmpty_iff_has]
  exact forall_congr' fun x => by rw [h.has]

theorem not_emptied_of_alike (alike : hub.HoldsAlike hub') : hub.emptied hub' = false := by
  unfold emptied
  rw [alike.isEmpty, Bool.not_and_self]

/-- Closing a context gives the audio routing back exactly if it is the last one. -/
theorem resets_closeContext (hub : Hub) (x : Id) :
    resets (hub.closeContext x).2 = (hub.emptied (hub.closeContext x).1).toNat := by
  cases held : hub.contexts.get? x with
  | none =>
    rw [closeContext_of_missing held, not_emptied_of_alike (.refl hub)]
    rfl
  | some c =>
    have some : hub.contexts.isEmpty = false := by
      rw [Bool.eq_false_iff]
      intro empty
      have missing := Table.isEmpty_iff_has.1 empty x
      rw [Table.has, held] at missing
      cases missing
    unfold emptied closeContext
    rw [held, some]
    show resets (if (hub.contexts.erase x).isEmpty then [.resetAudio] else [])
      = (!false && (hub.contexts.erase x).isEmpty).toNat
    cases (hub.contexts.erase x).isEmpty <;> rfl

/-- The audio routing is given back exactly if the hub has come to hold no context. -/
theorem Lapses.resets_eq {effects : List Effect} (h : start.Lapses hub' effects) :
    resets effects = (start.emptied hub').toNat := by
  cases h with
  | stays alike silent =>
    rw [silent, not_emptied_of_alike alike]
    rfl
  | closes mid x c alike last empty comes gives =>
    rw [gives, resets_closeContext, comes]
    unfold emptied
    rw [alike.isEmpty]

/-- Nobody was left in a context that is held no longer. -/
theorem Lapses.closing {effects : List Effect} (h : start.Lapses hub' effects) {x : Id}
    (held : start.contexts.has x = true) (missing : hub'.contexts.has x = false) :
    ∃ (mid : Hub) (c : Context), hub' = (mid.closeContext x).1 ∧
      mid.contexts.get? x = some c ∧ c.agents = [] := by
  cases h with
  | stays alike silent =>
    rw [alike.has, held] at missing
    cases missing
  | closes mid y c alike last empty comes gives =>
    suffices isX : x = y by
      subst isX
      exact ⟨mid, c, comes, last, List.isEmpty_iff.1 empty⟩
    refine Decidable.byContradiction fun other => ?_
    rw [comes, (closeContext_of_held last).1] at missing
    change (Table.get? (mid.contexts.erase y) x).isSome = false at missing
    rw [Table.get?_erase, if_neg other] at missing
    have still : (mid.contexts.get? x).isSome = true := (alike.has x).trans held
    rw [still] at missing
    cases missing

/-! ### Operations -/

theorem resets_of_speaks {c : Context} {effects : List Effect} (speaks : c.Speaks effects) :
    resets effects = 0 := by
  refine List.countP_eq_zero.2 fun effect mem => ?_
  induction speaks with
  | nil => cases mem
  | notice kind own _ ih =>
    rcases List.mem_cons.1 mem with rfl | later
    · exact Bool.false_ne_true
    · exact ih later
  | call here later has _ ih =>
    rcases List.mem_append.1 mem with now | later
    · rcases List.mem_cons.1 now with rfl | passed
      · exact Bool.false_ne_true
      · obtain ⟨_, _, posted⟩ := List.mem_flatMap.1 passed
        obtain ⟨_, _, _, _, rfl⟩ := Context.post_of_passOn posted
        exact Bool.false_ne_true
    · exact ih later

theorem lapses_conclude (alike : start.HoldsAlike hub) (x : Id) (origin : Origin)
    (result : Except Fault Id) :
    start.Lapses (hub.conclude x origin result).hub (hub.conclude x origin result).effects := by
  obtain ⟨_, _, same | ⟨empty, closes⟩⟩ := hub.conclude_cases x origin result
  · rw [same]
    exact .stays alike rfl
  · rw [closes]
    cases held : hub.contexts.get? x with
    | none =>
      rw [closeContext_of_missing held]
      exact .stays alike rfl
    | some c =>
      rw [context?_of_held held] at empty
      exact .closes hub x c alike held empty rfl rfl

theorem lapses_begin (alike : start.HoldsAlike hub) (c : Context) (msg : ContextMsg)
    (origin : Origin) :
    start.Lapses (hub.begin c msg origin).hub (hub.begin c msg origin).effects := by
  cases hub.begin_cases c msg origin with
  | fails ids fault comes used =>
    rw [comes]
    exact @lapses_conclude { hub with ids } start ⟨alike.has⟩ ..
  | waits blank id ids session sessions new minted known comes =>
    rw [comes]
    exact .stays ⟨alike.has⟩ rfl

theorem lapses_closeIfEmpty (alike : start.HoldsAlike hub) (x : Id) {effects : List Effect}
    (silent : resets effects = 0) :
    start.Lapses (hub.closeIfEmpty x).1 (effects ++ (hub.closeIfEmpty x).2) := by
  rcases hub.closeIfEmpty_cases x with same | ⟨c, held, empty, closes⟩
  · rw [same, List.append_nil]
    exact .stays alike silent
  · rw [closes]
    refine .closes hub x c alike held empty rfl ?_
    unfold resets at silent ⊢
    rw [List.countP_append, silent, Nat.zero_add]

theorem lapses_enlist (alike : start.HoldsAlike hub) (x : Id) (a : Agent) (origin : Origin) :
    start.Lapses (hub.enlist x a origin).hub (hub.enlist x a origin).effects := by
  cases hub.enlist_cases x a origin with
  | fails fault comes =>
    rw [comes]
    exact lapses_conclude alike ..
  | joins c d there published comes =>
    rw [comes]
    exact lapses_conclude (alike.trans (alike_keep ..)) ..

theorem lapses_built {t : HubTurn} (built : hub.built = some t) : hub.Lapses t.hub t.effects := by
  cases built_cases built with
  | joins x a session origin rest latest source comes =>
    rw [comes]
    exact @lapses_enlist { hub with creations := rest } hub (alike_of_same rfl) ..
  | waits x a session origin rest latest isSink comes =>
    rw [comes]
    exact .stays (alike_of_same rfl) rfl

theorem lapses_answered {answer : Except Fault Event} {t : HubTurn}
    (answered : hub.answered answer = some t) : hub.Lapses t.hub t.effects := by
  cases answered_cases answered with
  | fails x a origin rest fault latest comes =>
    rw [comes]
    exact @lapses_conclude { hub with creations := rest } hub (alike_of_same rfl) ..
  | joins x a origin rest channel latest assigned comes =>
    rw [comes]
    exact @lapses_enlist { hub with creations := rest } hub (alike_of_same rfl) ..

theorem Fit.lapses_deliver (h : hub.Fit) {x : Id} {c : Context} (e : Event)
    (there : hub.context? x = some c) :
    hub.Lapses (hub.deliver c e).hub (hub.deliver c e).effects := by
  cases hub.deliver_cases c e with
  | refused fault refuses comes =>
    rw [comes]
    exact .stays (.refl hub) rfl
  | unclear d received asks comes =>
    rw [comes]
    exact .stays (alike_keep ..) rfl
  | begins d msg received asks asked comes =>
    rw [comes]
    exact lapses_begin (alike_keep ..) ..
  | carries d received other comes =>
    have keyed : d.Keyed := (Context.evolves_receive received).keyed (h.keyed there)
    rw [comes]
    exact .stays (alike_keep ..) (resets_of_speaks (Context.talks_carryOut keyed e).speaks)

theorem Fit.lapses_channelDestroyed (h : hub.Fit) (e : Event) :
    hub.Lapses (hub.channelDestroyed e).hub (hub.channelDestroyed e).effects := by
  cases hub.channelDestroyed_cases e with
  | dropped missing comes =>
    rw [comes]
    exact .stays (.refl hub) rfl
  | refused c fault held refuses comes =>
    rw [comes]
    exact @lapses_closeIfEmpty hub hub (.refl hub) c.id [] rfl
  | ends c d held received comes =>
    have keyed : d.Keyed :=
      (Context.evolves_receive received).keyed (h.keyed (context?_of_held held))
    rw [comes]
    exact lapses_closeIfEmpty (alike_keep ..) d.id
      (resets_of_speaks (Context.talks_agentDestroyed keyed e).speaks)

/-- A request for an agent may have a context opened, and closed again if nothing comes of it. -/
theorem lapses_createAgent (hub : Hub) {e : Event} (kind : e.kind = .createAgent) :
    (hub.opened (.event e)).Lapses (hub.createAgent e).hub (hub.createAgent e).effects := by
  unfold opened Hub.createAgent
  simp only [kind]
  cases asked : e.payload.contextMsg? with
  | none => exact .stays (.refl hub) rfl
  | some msg =>
    by_cases room : hub.hasRoom msg.role = true
    · simp only [room, if_true, Bool.not_true, Bool.false_eq_true, if_false]
      cases found : hub.contextFor e.dst with
      | error fault => exact .stays (.refl hub) rfl
      | ok new =>
        obtain ⟨c, fresh, hub'⟩ := new
        cases received : c.receive e with
        | error fault =>
          simp only [received]
          exact .stays (.refl hub') rfl
        | ok d =>
          simp only [received]
          exact lapses_begin (alike_keep hub' d) ..
    · simp only [room, Bool.not_false, if_true]
      exact .stays (.refl hub) rfl

theorem Fit.lapses_handle (h : hub.Fit) (e : Event) :
    (hub.opened (.event e)).Lapses (hub.handle e).hub (hub.handle e).effects := by
  by_cases own : e.kind = .createContext ∨ e.kind = .createAgent
  · rcases own with kind | kind
    · unfold opened Hub.handle
      simp only [kind]
      cases hub.openContext with
      | error fault => exact .stays (.refl hub) rfl
      | ok new => exact .stays (.refl new.2) rfl
    · have creates : hub.handle e = hub.createAgent e := by
        unfold Hub.handle
        rw [kind]
      rw [creates]
      exact lapses_createAgent hub kind
  · obtain ⟨notContext, notAgent⟩ := not_or.1 own
    have same : hub.opened (.event e) = hub := by
      unfold opened
      dsimp only
      split
      · exact absurd ‹_› notContext
      · exact absurd ‹_› notAgent
      · rfl
    rw [same]
    cases hub.handle_cases e with
    | configures kind comes =>
      rw [comes]
      exact .stays (alike_of_same (contexts_configure ..)) rfl
    | full fault kind => exact absurd kind notContext
    | opens c hub' kind => exact absurd kind notContext
    | creates kind => exact absurd kind notAgent
    | ends kind comes =>
      rw [comes]
      exact h.lapses_channelDestroyed e
    | dropped _ _ missing comes =>
      rw [comes]
      exact .stays (.refl hub) rfl
    | delivers c _ _ held comes =>
      rw [comes]
      exact h.lapses_deliver e (context?_of_held held)

/-- No agent gives the audio routing back. -/
theorem resets_effects (c : Context) (acts : List AgentAct) :
    resets (acts.filterMap c.effectOf?) = 0 := by
  refine List.countP_eq_zero.2 fun effect mem => ?_
  obtain ⟨act, _, seen⟩ := List.mem_filterMap.1 mem
  cases act with
  | call s k =>
    obtain rfl := Option.some.inj seen
    exact Bool.false_ne_true
  | report m =>
    obtain ⟨_, _, rfl⟩ := Context.effectOf?_report seen
    exact Bool.false_ne_true

theorem lapses_overhear (hub : Hub) (x id : Id) (news : SessionNews) :
    hub.Lapses (hub.overhear x id news).hub (hub.overhear x id news).effects := by
  unfold Hub.overhear
  split
  · exact .stays (.refl hub) rfl
  · rename_i c there
    split
    · refine .stays (alike_keep ..) ?_
      unfold Context.tell
      split
      · rfl
      · exact resets_effects ..
    · split
      · refine .stays (alike_keep ..) ?_
        unfold Context.tellRetired
        split
        · rfl
        · exact resets_effects ..
      · exact .stays (alike_of_same rfl) rfl

/-- **The contexts that an act closes.** -/
theorem Fit.lapses_perform (h : hub.Fit) {act : Act} (keeps : act.releases = false) :
    (hub.opened act).Lapses (hub.perform act).hub (hub.perform act).effects := by
  have idle : hub.Lapses hub [] := .stays (.refl hub) rfl
  cases hub.perform_cases act with
  | handles e => exact h.lapses_handle e
  | lost x e missing comes => exact comes ▸ idle
  | delivers x e c there comes => exact comes ▸ h.lapses_deliver e there
  | unbuilt comes => exact comes ▸ idle
  | builds t made comes => exact comes ▸ lapses_built made
  | unanswered answer comes => exact comes ▸ idle
  | answers answer t made comes => exact comes ▸ lapses_answered made
  | overhears x id news => exact hub.lapses_overhear x id news
  | registers className cls => exact .stays (alike_of_same rfl) rfl
  | starts config => exact .stays (alike_of_same rfl) rfl
  | closes x => cases keeps

/-! ### Histories -/

/-- A context is opened beside the others. -/
theorem not_emptied_opened (hub : Hub) (act : Act) : hub.emptied (hub.opened act) = false := by
  have same : hub.emptied hub = false := not_emptied_of_alike (.refl hub)
  have beside : ∀ {c hub'}, hub.openContext = .ok (c, hub') → hub.emptied hub' = false := by
    intro c hub' opened
    obtain ⟨_, id, ids, _, _, rfl⟩ := openContext_eq_ok opened
    unfold emptied
    rw [Bool.and_eq_false_iff, Bool.eq_false_iff (b := List.isEmpty _)]
    refine .inr fun empty => ?_
    have missing := Table.isEmpty_iff_has.1 empty id
    change (Table.get? (hub.contexts.put id { id }) id).isSome = false at missing
    rw [Table.get?_put, if_pos rfl] at missing
    cases missing
  unfold opened
  split
  · split
    · cases opened : hub.openContext with
      | error fault => exact same
      | ok new => exact beside opened
    · split
      · exact same
      · split
        · cases found : hub.contextFor _ with
          | error fault => exact same
          | ok new =>
            obtain ⟨c, fresh, hub'⟩ := new
            rcases contextFor_eq_ok found with ⟨_, opened⟩ | ⟨_, _, rfl⟩
            · exact beside opened
            · exact same
        · exact same
    · exact same
  · exact same

/-- **The audio routing is given back whenever the last context goes.** -/
theorem Fit.resets_journal (h : hub.Fit) (acts : List Act) :
    resets ((hub.journal acts).flatMap (·.turn.effects)) = hub.emptyings acts := by
  induction acts generalizing hub with
  | nil => rfl
  | cons act rest ih =>
    obtain ⟨cs, does⟩ := h.perform act
    have now : resets (hub.perform act).effects
        = ((hub.opened act).emptied (hub.perform act).hub).toNat := by
      by_cases keeps : act.releases = false
      · exact (h.lapses_perform keeps).resets_eq
      · cases act with
        | close x => exact resets_closeContext hub x
        | _ => exact absurd rfl keeps
    have later := ih (does.fit h)
    unfold resets at later now ⊢
    show List.countP _ (List.flatMap _ (hub.moment act :: (hub.perform act).hub.journal rest)) = _
    rw [List.flatMap_cons, List.countP_append, later]
    show List.countP _ (hub.perform act).effects + _ = (hub.emptied (hub.opened act)).toNat + _ + _
    rw [now, not_emptied_opened, Bool.toNat_false, Nat.zero_add]

/-- **Whoever is in a context that is held stays in it, or is removed**, unless a context is
released or a live number is met again. -/
theorem Sound.stays_or_leaves (h : hub.Sound) {act : Act} (keeps : act.releases = false)
    (spares : (hub.moment act).Spares) {x id : Id} (here : hub.holds x id = true) :
    (hub.perform act).hub.holds x id = true ∨ (hub.moment act).removal? = some (x, id) := by
  obtain ⟨cs, does⟩ := h.toFit.perform act
  obtain ⟨n, there, rfl⟩ := h.holds_iff.1 here
  have record := h.sound.recorded_run does.run (does.spares h.toFit spares) (does.calm.kept keeps)
  rcases record.stays there with left | still
  · have removed : (x, n.id) ∈ (hub.moment act).removal?.toList :=
      does.removed ▸ List.mem_map.2 ⟨(x, n), left, rfl⟩
    exact .inr (Option.mem_toList.1 removed)
  · exact .inl ((does.fit h.toFit).holds_iff.2 ⟨n, still, rfl⟩)

end Hub

end CastHub
