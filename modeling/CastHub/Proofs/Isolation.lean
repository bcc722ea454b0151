import CastHub.Proofs.Consultation
import CastHub.Proofs.HubSpeech
import CastHub.Proofs.Recipients
/-!
# Contexts do not touch each other

An event is handled on behalf of one context: the one that it is addressed to, or one that is opened
for it. Whatever comes of it, every other context that the hub holds is as it was before, with all
of its agents and their sessions, unless the number of a context that is opened is its own; and
whoever speaks meanwhile is the context that was addressed (`Hub.contexts_are_isolated`).

The event is seen through to its end here, with nobody else doing anything meanwhile
(`Hub.attend`): if an agent is to be made, its session is built and the media channel answers.

* `Hub.Confined` : all contexts but one are as they were;
* `Hub.ActsFor` : an operation on behalf of a context, and an agent in the making there.
-/

namespace CastHub

/-- A sink is made in another new context. -/
def Act.another : List Act := [request .sink .unassigned .unassigned, built, grant 8]

/-! ## All contexts but one -/

/-- Whether an operation waits for somebody. -/
def Outcome.waits : Outcome → Bool
  | .building _ | .asking _ => true
  | _ => false

namespace Hub

/-- Every context that is held, but for `x`, is as it was. -/
def Confined (hub : Hub) (x : Id) (hub' : Hub) : Prop :=
  ∀ ⦃y c⦄, y ≠ x → hub.contexts.get? y = some c → hub'.contexts.get? y = some c

/-- What an operation on behalf of the context `x` comes to: it is confined to that context, and if
it waits for somebody then for the sake of an agent in the making there. -/
structure ActsFor (hub : Hub) (x : Id) (t : HubTurn) : Prop where
  confined : hub.Confined x t.hub
  waits : t.outcome.waits = true → ∃ creation rest,
    t.hub.creations = creation :: rest ∧ creation.context = x

variable {hub : Hub} {x : Id}

theorem Confined.refl (hub : Hub) (x : Id) : hub.Confined x hub := fun _ _ _ held => held

theorem Confined.trans {a b c : Hub} (h : a.Confined x b) (h' : b.Confined x c) :
    a.Confined x c := fun _ _ other held => h' other (h other held)

theorem confined_of_same {hub' : Hub} (same : hub'.contexts = hub.contexts) :
    hub.Confined x hub' := fun _ _ _ held => same ▸ held

theorem confined_keep (hub : Hub) (c : Context) : hub.Confined c.id (hub.keep c) := by
  intro y d other held
  unfold keep
  split
  · show (hub.contexts.put c.id c).get? y = some d
    rw [Table.get?_put, if_neg other, held]
  · exact held

theorem confined_closeContext (hub : Hub) (x : Id) : hub.Confined x (hub.closeContext x).1 := by
  intro y d other held
  unfold closeContext
  split
  · exact held
  · show (hub.contexts.erase x).get? y = some d
    rw [Table.get?_erase, if_neg other, held]

theorem confined_closeIfEmpty (hub : Hub) (x : Id) : hub.Confined x (hub.closeIfEmpty x).1 := by
  rcases hub.closeIfEmpty_cases x with same | ⟨_, _, _, closes⟩
  · rw [same]
    exact .refl hub x
  · rw [closes]
    exact hub.confined_closeContext x

theorem confined_openContext {c : Context} {hub' : Hub} (opened : hub.openContext = .ok (c, hub')) :
    hub.Confined c.id hub' := by
  obtain ⟨_, id, ids, _, rfl, rfl⟩ := openContext_eq_ok opened
  intro y d other held
  show (hub.contexts.put id { id }).get? y = some d
  rw [Table.get?_put, if_neg other, held]

/-! ## Operations -/

theorem ActsFor.preceded {mid : Hub} {t : HubTurn} (h : mid.ActsFor x t)
    (confined : hub.Confined x mid) : hub.ActsFor x t := ⟨confined.trans h.confined, h.waits⟩

/-- The hub before it held the same contexts. -/
theorem ActsFor.of_same {mid : Hub} {t : HubTurn} (h : mid.ActsFor x t)
    (same : mid.contexts = hub.contexts) : hub.ActsFor x t := h.preceded (confined_of_same same)

/-- An operation that waits for nobody. -/
theorem actsFor_of_done {t : HubTurn} (confined : hub.Confined x t.hub)
    (done : t.outcome.waits = false) : hub.ActsFor x t where
  confined := confined
  waits waits := by
    rw [done] at waits
    cases waits

theorem done_conclude (hub : Hub) (x : Id) (origin : Origin) (result : Except Fault Id) :
    (hub.conclude x origin result).outcome.waits = false := by
  obtain ⟨outcome, told, comes⟩ := hub.conclude_cases x origin result
  have done : outcome.waits = false := by
    rcases told with rfl | ⟨e, rfl⟩ <;> rfl
  rcases comes with same | ⟨_, closes⟩
  · rw [same]
    exact done
  · rw [closes]
    exact done

theorem actsFor_conclude (hub : Hub) (x : Id) (origin : Origin) (result : Except Fault Id) :
    hub.ActsFor x (hub.conclude x origin result) := by
  refine actsFor_of_done ?_ (done_conclude ..)
  obtain ⟨outcome, _, same | ⟨_, closes⟩⟩ := hub.conclude_cases x origin result
  · rw [same]
    exact .refl hub x
  · rw [closes]
    exact hub.confined_closeContext x

theorem actsFor_begin (hub : Hub) (c : Context) (msg : ContextMsg) (origin : Origin) :
    hub.ActsFor c.id (hub.begin c msg origin) := by
  cases hub.begin_cases c msg origin with
  | fails ids fault comes used =>
    rw [comes]
    exact (actsFor_conclude ..).of_same rfl
  | waits blank id ids session sessions new minted known comes =>
    rw [comes]
    exact ⟨confined_of_same rfl, fun _ => ⟨_, _, rfl, rfl⟩⟩

theorem Tidy.actsFor_enlist (h : hub.Tidy) (x : Id) (a : Agent) (origin : Origin) :
    hub.ActsFor x (hub.enlist x a origin) := by
  cases hub.enlist_cases x a origin with
  | fails fault comes =>
    rw [comes]
    exact actsFor_conclude ..
  | joins c c' there published comes =>
    have isX : c'.id = x := (Context.roster_publish published).2.1.id.trans (h.id there)
    rw [comes]
    exact (actsFor_conclude ..).preceded (isX ▸ hub.confined_keep c')

/-- The latest agent in the making is ready. -/
theorem Tidy.actsFor_ready (h : hub.Tidy) {creation : Creation} {rest : List Creation}
    (latest : hub.creations = creation :: rest) (a : Agent) (origin : Origin) :
    hub.ActsFor creation.context
      (({ hub with creations := rest } : Hub).enlist creation.context a origin) :=
  have tidy : Tidy { hub with creations := rest } :=
    h.fewer rfl rfl (latest ▸ List.subset_cons_self ..)
  (tidy.actsFor_enlist ..).of_same rfl

theorem Tidy.actsFor_built (h : hub.Tidy) {creation : Creation} {rest : List Creation}
    (latest : hub.creations = creation :: rest) {t : HubTurn} (built : hub.built = some t) :
    hub.ActsFor creation.context t := by
  cases built_cases built with
  | joins y a session origin others isLatest source comes =>
    obtain ⟨rfl, rfl⟩ := List.cons.inj (latest.symm.trans isLatest)
    rw [comes]
    exact h.actsFor_ready latest ..
  | waits y a session origin others isLatest isSink comes =>
    obtain ⟨rfl, rfl⟩ := List.cons.inj (latest.symm.trans isLatest)
    rw [comes]
    exact ⟨confined_of_same rfl, fun _ => ⟨_, _, rfl, rfl⟩⟩

theorem Tidy.actsFor_answered (h : hub.Tidy) {creation : Creation} {rest : List Creation}
    (latest : hub.creations = creation :: rest) {answer : Except Fault Event} {t : HubTurn}
    (answered : hub.answered answer = some t) : hub.ActsFor creation.context t := by
  cases answered_cases answered with
  | fails y a origin others fault isLatest comes =>
    obtain ⟨rfl, rfl⟩ := List.cons.inj (latest.symm.trans isLatest)
    rw [comes]
    exact (actsFor_conclude ..).of_same rfl
  | joins y a origin others channel isLatest assigned comes =>
    obtain ⟨rfl, rfl⟩ := List.cons.inj (latest.symm.trans isLatest)
    rw [comes]
    exact h.actsFor_ready latest ..

theorem Fit.actsFor_deliver (h : hub.Fit) {c : Context} (e : Event)
    (held : hub.contexts.get? x = some c) : hub.ActsFor x (hub.deliver c e) := by
  have isX := (h.tidy.held held).1
  have kept : ∀ {d}, c.Remains d → hub.Confined x (hub.keep d) := by
    intro d remains
    rw [← isX, ← remains.id]
    exact hub.confined_keep d
  cases hub.deliver_cases c e with
  | refused fault refuses comes =>
    rw [comes]
    exact actsFor_of_done (.refl hub x) rfl
  | unclear d received asks comes =>
    rw [comes]
    exact actsFor_of_done (kept (Context.roster_receive received).2) rfl
  | begins d msg received asks asked comes =>
    have remains := (Context.roster_receive received).2
    have begins := (hub.keep d).actsFor_begin d msg (.event e)
    rw [remains.id, isX] at begins
    rw [comes]
    exact begins.preceded (kept remains)
  | carries d received other comes =>
    have remains := (Context.roster_receive received).2.trans (d.remains_carryOut e)
    rw [comes]
    exact actsFor_of_done (kept remains) rfl

theorem Fit.actsFor_channelDestroyed (h : hub.Fit) (e : Event) :
    hub.ActsFor e.dst (hub.channelDestroyed e) := by
  cases hub.channelDestroyed_cases e with
  | dropped missing comes =>
    rw [comes]
    exact actsFor_of_done (.refl hub e.dst) rfl
  | refused c fault held refuses comes =>
    rw [comes]
    exact actsFor_of_done ((h.tidy.held held).1 ▸ hub.confined_closeIfEmpty c.id) rfl
  | ends c d held received comes =>
    have remains := (Context.roster_receive received).2
    have isX : d.id = e.dst := remains.id.trans (h.tidy.held held).1
    have kept := hub.confined_keep (d.agentDestroyed e).context
    have closed := (hub.keep (d.agentDestroyed e).context).confined_closeIfEmpty d.id
    rw [(d.remains_agentDestroyed e).id, isX] at kept
    rw [comes]
    exact actsFor_of_done (kept.trans (isX ▸ closed)) rfl

/-- A request for an agent acts for the context that it names, or for one that is given a number. -/
theorem Fit.actsFor_createAgent (h : hub.Fit) (e : Event) :
    ∃ x, (x = e.dst ∨ x ∈ hub.ids.between 2 (hub.createAgent e).hub.ids) ∧
      hub.ActsFor x (hub.createAgent e) := by
  -- the context that the agent is to be made in
  have found : ∀ {c fresh hub'}, hub.contextFor e.dst = .ok (c, fresh, hub') →
      hub.Confined c.id hub' ∧ ∀ {ids later}, hub'.ids.Draws ids later → ids.length ≤ 1 →
        (c.id = e.dst ∨ c.id ∈ hub.ids.between 2 later) := by
    intro c fresh hub' found
    rcases contextFor_eq_ok found with ⟨_, opened⟩ | ⟨_, held, rfl⟩
    · exact ⟨confined_openContext opened, fun draws few =>
        .inr (mem_between_of_opened opened draws few)⟩
    · exact ⟨.refl .., fun _ _ => .inl (h.tidy.held held).1⟩
  cases hub.createAgent_cases e with
  | refused fault comes =>
    rw [comes]
    exact ⟨e.dst, .inl rfl, actsFor_of_done (.refl hub e.dst) rfl⟩
  | shut c fresh hub' fault isFound comes =>
    obtain ⟨opens, own⟩ := found isFound
    rw [comes]
    exact ⟨c.id, own (IdSource.draws_nil _) (Nat.zero_le _), actsFor_of_done opens rfl⟩
  | begins msg c d fresh hub' asked room isFound received comes =>
    obtain ⟨opens, own⟩ := found isFound
    have same : d.id = c.id := (Context.roster_receive received).2.id
    have kept := hub'.confined_keep d
    have begins := (hub'.keep d).actsFor_begin d msg (.request e fresh)
    obtain ⟨ids, draws, few⟩ := (hub'.keep d).draws_begin d msg (.request e fresh)
    rw [ids_keep] at draws
    rw [same] at kept begins
    rw [comes]
    exact ⟨c.id, own draws few, begins.preceded (opens.trans kept)⟩

/-- **An event is handled on behalf of one context**: the one that it is addressed to, or one that
is given a number. -/
theorem Fit.actsFor_handle (h : hub.Fit) (e : Event) :
    ∃ x, (x = e.dst ∨ x ∈ (hub.moment (.event e)).minted) ∧ hub.ActsFor x (hub.handle e) := by
  have silent : ∀ {t : HubTurn}, t.hub.contexts = hub.contexts → t.outcome.waits = false →
      ∃ x, (x = e.dst ∨ x ∈ hub.ids.between 2 t.hub.ids) ∧ hub.ActsFor x t := fun same done =>
    ⟨e.dst, .inl rfl, actsFor_of_done (confined_of_same same) done⟩
  show ∃ x, (x = e.dst ∨ x ∈ hub.ids.between 2 (hub.handle e).hub.ids) ∧ _
  cases hub.handle_cases e with
  | configures kind comes =>
    rw [comes]
    exact silent (contexts_configure ..) rfl
  | full fault kind comes =>
    rw [comes]
    exact silent rfl rfl
  | opens c hub' kind opened comes =>
    rw [comes]
    exact ⟨c.id, .inr (mem_between_of_opened opened (IdSource.draws_nil _) (Nat.zero_le _)),
      actsFor_of_done (confined_openContext opened) rfl⟩
  | creates kind comes =>
    rw [comes]
    exact h.actsFor_createAgent e
  | ends kind comes =>
    rw [comes]
    exact ⟨e.dst, .inl rfl, h.actsFor_channelDestroyed e⟩
  | dropped notAgent notChannel missing comes =>
    rw [comes]
    exact silent rfl rfl
  | delivers c notAgent notChannel held comes =>
    rw [comes]
    exact ⟨e.dst, .inl rfl, h.actsFor_deliver e held⟩

/-! ## To the end -/

/-- An operation on behalf of the context `x` that is pursued: nothing has been said since
`said`. -/
structure Pursues (hub : Hub) (x : Id) (said : List Effect) (t : HubTurn) : Prop where
  fit : t.hub.Fit
  acts : hub.ActsFor x t
  silent : ∃ rest, Mute rest ∧ t.effects = said ++ rest

/-- Somebody comes who was waited for. -/
theorem Pursues.goesOn {said : List Effect} {t u : HubTurn} (h : hub.Pursues x said t)
    (waits : t.outcome.waits = true)
    (next : t.hub.built = some u ∨ ∃ answer, t.hub.answered answer = some u) :
    hub.Pursues x said (t.goesOn (some u)) := by
  obtain ⟨creation, rest, latest, rfl⟩ := h.acts.waits waits
  obtain ⟨silent, mute, effects⟩ := h.silent
  have more : u.hub.Fit ∧ t.hub.ActsFor creation.context u ∧ Mute u.effects := by
    rcases next with built | ⟨answer, answered⟩
    · exact ⟨h.fit.turned (h.fit.built built (n := 0)), h.fit.tidy.actsFor_built latest built,
        mute_built built⟩
    · exact ⟨h.fit.turned (h.fit.answered answered (n := 0)),
        h.fit.tidy.actsFor_answered latest answered, mute_answered answered⟩
  obtain ⟨fit, acts, quiet⟩ := more
  have confined := h.acts.confined.trans acts.confined
  refine ⟨fit, ⟨confined, acts.waits⟩, silent ++ u.effects, mute.append quiet, ?_⟩
  show t.effects ++ u.effects = _
  rw [effects, List.append_assoc]

theorem Pursues.withAnswer {said : List Effect} {t : HubTurn} (h : hub.Pursues x said t)
    (answer : Event → Except Fault Event) : hub.Pursues x said (t.withAnswer answer) := by
  unfold HubTurn.withAnswer
  split
  · rename_i request asks
    cases next : t.hub.answered (answer request) with
    | none => exact h
    | some u => exact h.goesOn (asks ▸ rfl) (.inr ⟨_, next⟩)
  · exact h

theorem Pursues.seenThrough {said : List Effect} {t : HubTurn} (h : hub.Pursues x said t)
    (answer : Event → Except Fault Event) : hub.Pursues x said (t.seenThrough answer) := by
  unfold HubTurn.seenThrough
  split
  · rename_i className asks
    refine Pursues.withAnswer ?_ answer
    cases next : t.hub.built with
    | none => exact h
    | some u => exact h.goesOn (asks ▸ rfl) (.inl next)
  · exact h.withAnswer answer

/-- **Contexts are isolated.** Whatever has happened to a hub, and whatever event it handles next,
from beginning to end: every context that it holds, but for the one that the event is addressed to
and one whose number is handed out again, is as it was before, with all of its agents and their
sessions. No session is called but those of the agents in the context that the event is addressed
to; and whatever is sent on its way bears the identity of that context. -/
theorem contexts_are_isolated {hub : Hub} (fresh : hub.IsFresh) (acts : List Act) (e : Event)
    (answer : Event → Except Fault Event) :
    (∀ y c, y ≠ e.dst → y ∉ ((hub.after acts).moment (.event e)).minted →
      (hub.after acts).contexts.get? y = some c →
      ((hub.after acts).attend answer e).hub.contexts.get? y = some c) ∧
    (∀ s k, .call s k ∈ ((hub.after acts).attend answer e).effects →
      ∃ c id a r, (hub.after acts).contexts.get? e.dst = some c ∧ c.agents.get? id = some a ∧
        a.session = some r ∧ r.Grows s) ∧
    (∀ posted, .post posted ∈ ((hub.after acts).attend answer e).effects →
      posted.src = e.dst) := by
  have fit := fresh.fit_after acts
  obtain ⟨x, own, handles⟩ := fit.actsFor_handle e
  have pursued : (hub.after acts).Pursues x ((hub.after acts).handle e).effects
      ((hub.after acts).handle e) :=
    ⟨fit.turned (fit.handle e), handles, [], mute_nil, (List.append_nil _).symm⟩
  obtain ⟨_, acts', rest, mute, effects⟩ := pursued.seenThrough answer
  -- whatever is said is said when the event is handled, and by the context that it is addressed to
  have said : ∀ {effect}, effect ∈ ((hub.after acts).attend answer e).effects →
      effect ≠ .resetAudio → ∃ (c d : Context) (said : List Effect),
        (hub.after acts).contexts.get? e.dst = some c ∧ d.id = e.dst ∧ d.agents = c.agents ∧
        d.Speaks said ∧ effect ∈ said := by
    intro effect mem loud
    have heard : ∀ {quiet : List Effect}, Mute quiet → effect ∉ quiet := fun mute mem =>
      loud (mute.only effect mem)
    change effect ∈ (((hub.after acts).handle e).seenThrough answer).effects at mem
    rw [effects] at mem
    have mem := (List.mem_append.1 mem).resolve_right (heard mute)
    cases fit.says_handle e with
    | nothing silent => exact absurd mem (heard silent)
    | spoken y c d said quiet addressed held id agents speaks silent all =>
      obtain rfl := Option.some.inj addressed
      rw [all] at mem
      exact ⟨c, d, said, held, id, agents, speaks,
        (List.mem_append.1 mem).resolve_right (heard silent)⟩
    | passed y id news c a isNews => cases isNews
  refine ⟨?_, ?_, ?_⟩
  · intro y c other kept held
    refine acts'.confined ?_ held
    rintro rfl
    exact own.elim other kept
  · intro s k mem
    obtain ⟨c, d, _, held, _, agents, speaks, now⟩ := said mem Effect.noConfusion
    obtain ⟨a, b, here, persists, has⟩ := speaks.of_call now
    obtain ⟨r, before, grows⟩ := persists.some_of_session has
    exact ⟨c, b.id, a, r, held, agents ▸ here, before, grows⟩
  · intro posted mem
    obtain ⟨_, d, _, _, id, _, speaks, now⟩ := said mem Effect.noConfusion
    exact (speaks.src_of_post now).trans id

/-- While a second session is going on, the sink of the first one is told to start. -/
theorem contexts_are_isolated_beside_sharing : ∃ e c, Act.say (.command .start) 1 2 = .event e ∧
    (loopback.after (Act.sharing ++ Act.another)).contexts.get? 4 = some c ∧
    c.agents.has 5 = true ∧
    ((loopback.after (Act.sharing ++ Act.another)).attend .ok e).hub.contexts.get? 4 = some c ∧
    (posts ((loopback.after (Act.sharing ++ Act.another)).attend .ok e).effects).length = 2 ∧
    ∀ posted, .post posted ∈
      ((loopback.after (Act.sharing ++ Act.another)).attend .ok e).effects → posted.src = 1 := by
  refine ⟨_, _, rfl, rfl, rfl, ?_, rfl, ?_⟩
  · exact (contexts_are_isolated isFresh_loopback (Act.sharing ++ Act.another) _ .ok).1 4 _
      (by decide) (by decide) rfl
  · exact (contexts_are_isolated isFresh_loopback (Act.sharing ++ Act.another) _ .ok).2.2

end Hub

end CastHub
