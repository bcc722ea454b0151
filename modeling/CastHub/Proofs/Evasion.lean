import CastHub.Proofs.Isolation
import CastHub.Proofs.Quotas
/-!
# How quotas are passed

A request for an agent is refused when its quota is used up. But a hub passes on whatever it does
not know to the context that it is addressed to, and so it does with an event by which contexts are
asked for agents. A context does not ask for room: such an event comes to the same whatever the
limits are (`Hub.attend_withLimits`), so a quota that is used up is no obstacle to it
(`Hub.a_context_passes_the_quota`). Nothing else that happens brings the agents of a role above
their limit, or further above it (`Population.Orderly.inUse_run`).
-/

namespace CastHub

/-- A context is asked for a sink by way of the hub. -/
def Act.bypass (context : Id) : Event :=
  { kind := .contextCreateAgent, sender := .interaction, target := .hub, src := 1, dst := context,
    payload := .context (ContextMsg.create Loopback.className .sink) }

/-- As long as no change goes past the quotas, no more of a quota is in use than before, or than the
limit allows. -/
theorem Population.Orderly.inUse_run {p q : Population} {cs : List Change} (h : p.Orderly)
    (run : Run p cs q) (within : ∀ c ∈ cs, c.passesQuota = false) (role : Role) :
    q.limits = p.limits ∧ q.inUse role ≤ max (p.inUse role) (p.limits.agents role) := by
  induction run with
  | nil => exact ⟨rfl, Nat.le_max_left ..⟩
  | @snoc cs c q r run step ih =>
    obtain ⟨limits, before⟩ := ih fun c mem => within c (List.mem_append_left _ mem)
    have now := within c (List.mem_append_right _ (List.mem_singleton_self _))
    have inUse := (h.run run).inUse_step step now role
    refine ⟨(step.limits_eq now).trans limits, ?_⟩
    rcases step.room role with none | ⟨one, room⟩
    · omega
    · rw [limits] at room
      omega

/-- The same hub under other limits. -/
def Hub.withLimits (hub : Hub) (limits : Limits) : Hub := { hub with limits }

/-- The same turn under other limits. -/
def HubTurn.withLimits (t : HubTurn) (limits : Limits) : HubTurn :=
  { t with hub := t.hub.withLimits limits }

namespace Hub

/-! ## What does not depend on the limits -/

variable (hub : Hub) (limits : Limits)

theorem keep_withLimits (c : Context) :
    (hub.withLimits limits).keep c = (hub.keep c).withLimits limits := by
  show (if hub.contexts.has c.id then _ else _) = _
  unfold keep
  split <;> rfl

theorem closeContext_withLimits (x : Id) : (hub.withLimits limits).closeContext x
    = ((hub.closeContext x).1.withLimits limits, (hub.closeContext x).2) := by
  unfold closeContext withLimits
  dsimp only
  split <;> rfl

theorem conclude_withLimits (x : Id) (origin : Origin) (result : Except Fault Id) :
    (hub.withLimits limits).conclude x origin result
      = (hub.conclude x origin result).withLimits limits := by
  cases origin with
  | direct => rfl
  | event e => rfl
  | request e fresh =>
    unfold conclude
    simp only [closeContext_withLimits]
    show (if fresh && !result.isOk && (hub.context? x).all (·.isEmpty) then _ else _) = _
    split <;> rfl

theorem begin_withLimits (c : Context) (msg : ContextMsg) (origin : Origin) :
    (hub.withLimits limits).begin c msg origin = (hub.begin c msg origin).withLimits limits := by
  unfold begin
  cases c.blankAgent msg with
  | error fault => exact hub.conclude_withLimits limits ..
  | ok blank =>
    have same : (hub.withLimits limits).ids = hub.ids := rfl
    dsimp only
    rw [same]
    obtain ⟨id, ids⟩ := hub.ids.mint
    have made : ({ hub.withLimits limits with ids } : Hub).newSession? msg.className
        = (({ hub with ids } : Hub).newSession? msg.className).map fun new =>
          (new.1, new.2.withLimits limits) := by
      unfold newSession?
      show (hub.classes.get? msg.className).map _ = ((hub.classes.get? msg.className).map _).map _
      cases hub.classes.get? msg.className with
      | none => rfl
      | some cls =>
        dsimp only [Option.map_some]
        split <;> rfl
    dsimp only
    rw [made]
    cases ({ hub with ids } : Hub).newSession? msg.className with
    | none => exact ({ hub with ids } : Hub).conclude_withLimits limits ..
    | some new => rfl

theorem deliver_withLimits (c : Context) (e : Event) :
    (hub.withLimits limits).deliver c e = (hub.deliver c e).withLimits limits := by
  unfold deliver
  cases c.receive e with
  | error fault => rfl
  | ok d =>
    dsimp only
    split
    · cases e.payload.contextMsg? with
      | none =>
        dsimp only
        rw [keep_withLimits]
        rfl
      | some msg =>
        dsimp only
        rw [keep_withLimits, begin_withLimits]
    · rw [keep_withLimits]
      rfl

theorem enlist_withLimits (x : Id) (a : Agent) (origin : Origin) :
    (hub.withLimits limits).enlist x a origin = (hub.enlist x a origin).withLimits limits := by
  have same : (hub.withLimits limits).context? x = hub.context? x := rfl
  unfold enlist
  rw [same]
  cases hub.context? x with
  | none => exact hub.conclude_withLimits limits ..
  | some c =>
    dsimp only
    cases c.publish a with
    | error fault => exact hub.conclude_withLimits limits ..
    | ok d =>
      dsimp only
      rw [keep_withLimits, conclude_withLimits]

theorem built_withLimits :
    (hub.withLimits limits).built = hub.built.map (·.withLimits limits) := by
  have same : (hub.withLimits limits).creations = hub.creations := rfl
  unfold Hub.built
  rw [same]
  cases hub.creations with
  | nil => rfl
  | cons creation rest =>
    obtain ⟨x, a, awaited, origin⟩ := creation
    cases awaited with
    | channel => rfl
    | session s =>
      dsimp only
      cases a.role with
      | sink => rfl
      | source =>
        exact congrArg some (({ hub with creations := rest } : Hub).enlist_withLimits limits ..)

theorem answered_withLimits (answer : Except Fault Event) :
    (hub.withLimits limits).answered answer
      = (hub.answered answer).map (·.withLimits limits) := by
  have same : (hub.withLimits limits).creations = hub.creations := rfl
  unfold Hub.answered
  rw [same]
  cases hub.creations with
  | nil => rfl
  | cons creation rest =>
    obtain ⟨x, a, awaited, origin⟩ := creation
    cases awaited with
    | session s => rfl
    | channel =>
      dsimp only
      cases Context.channelOf answer with
      | error fault =>
        exact congrArg some (({ hub with creations := rest } : Hub).conclude_withLimits limits ..)
      | ok channel =>
        exact congrArg some (({ hub with creations := rest } : Hub).enlist_withLimits limits ..)

theorem goesOn_withLimits (t : HubTurn) (next : Option HubTurn) :
    (t.withLimits limits).goesOn (next.map (·.withLimits limits))
      = (t.goesOn next).withLimits limits := by
  cases next <;> rfl

theorem withAnswer_withLimits (t : HubTurn) (answer : Event → Except Fault Event) :
    (t.withLimits limits).withAnswer answer = (t.withAnswer answer).withLimits limits := by
  obtain ⟨hub, effects, outcome⟩ := t
  cases outcome with
  | asking request =>
    show (HubTurn.withLimits _ limits).goesOn ((hub.withLimits limits).answered _) = _
    rw [answered_withLimits, goesOn_withLimits]
    rfl
  | _ => rfl

theorem seenThrough_withLimits (t : HubTurn) (answer : Event → Except Fault Event) :
    (t.withLimits limits).seenThrough answer = (t.seenThrough answer).withLimits limits := by
  obtain ⟨hub, effects, outcome⟩ := t
  cases outcome with
  | building className =>
    show ((HubTurn.withLimits _ limits).goesOn (hub.withLimits limits).built).withAnswer answer = _
    rw [built_withLimits, goesOn_withLimits, withAnswer_withLimits]
    rfl
  | handled result event => rfl
  | created result => rfl
  | asking request => exact withAnswer_withLimits limits ⟨hub, effects, .asking request⟩ answer

/-- **A context does not ask for room**: an event by which it is asked for an agent comes to the
same whatever the limits are. -/
theorem attend_withLimits {e : Event} (asks : e.kind = .contextCreateAgent)
    (answer : Event → Except Fault Event) :
    (hub.withLimits limits).attend answer e = (hub.attend answer e).withLimits limits := by
  have handles : (hub.withLimits limits).handle e = (hub.handle e).withLimits limits := by
    have same : (hub.withLimits limits).contexts = hub.contexts := rfl
    unfold handle forward
    rw [asks, same]
    cases hub.contexts.get? e.dst with
    | none => rfl
    | some c => exact hub.deliver_withLimits limits c e
  unfold attend
  rw [handles, seenThrough_withLimits]

/-! ## The quotas -/

/-- A request for an agent whose quota is used up is refused, and nothing comes of it. -/
theorem handle_of_full {hub : Hub} {e : Event} (asks : e.kind = .createAgent) {msg : ContextMsg}
    (asked : e.payload.contextMsg? = some msg)
    (full : hub.limits.agents msg.role ≤ hub.live msg.role) :
    hub.handle e = { hub, outcome := .handled (.error .serviceLimit) e } := by
  have room : hub.hasRoom msg.role = false :=
    decide_eq_false (Nat.not_lt.2 (Nat.le_trans full (Nat.le_add_right ..)))
  unfold handle
  rw [asks]
  unfold createAgent
  simp only [asked, room, Bool.not_false, if_true]

/-- **Only contexts pass the quotas.** Whatever has happened to a hub:

* a request for an agent is refused if as many of its role are there as the limit allows;
* an event by which a context is asked for an agent comes to the same whatever the limits are;
* as long as the limits are not moved and no context makes an agent that it was asked for by such
  an event, the agents of a role that are there do not get more than have taken room already, or
  than the limit allows. -/
theorem only_contexts_pass_the_quotas {hub : Hub} (fresh : hub.IsFresh) (acts : List Act) :
    (∀ e msg, e.kind = .createAgent → e.payload.contextMsg? = some msg →
      (hub.after acts).limits.agents msg.role ≤ (hub.after acts).live msg.role →
      (hub.after acts).handle e
        = { hub := hub.after acts, outcome := .handled (.error .serviceLimit) e }) ∧
    (∀ e limits answer, e.kind = .contextCreateAgent →
      ((hub.after acts).withLimits limits).attend answer e
        = ((hub.after acts).attend answer e).withLimits limits) ∧
    (∀ more, (∀ m ∈ (hub.after acts).journal more, m.passesQuota = false) → ∀ role,
      (hub.after (acts ++ more)).live role
        ≤ max ((hub.after acts).inUse role) ((hub.after acts).limits.agents role)) := by
  have fit := fresh.fit_after acts
  refine ⟨fun e msg asks asked full => handle_of_full asks asked full,
    fun e limits answer asks => attend_withLimits _ limits asks answer, fun more within role => ?_⟩
  obtain ⟨cs, undergoes⟩ := fit.after more
  obtain ⟨_, inUse⟩ := fit.orderly.inUse_run undergoes.run (undergoes.within within) role
  rw [inUse_population, inUse_population] at inUse
  rw [after_append]
  exact Nat.le_trans (Nat.le_add_right ..) inUse

/-- So it is where there is room for one sink only, and it is there. -/
theorem only_contexts_pass_the_quotas_when_cramped :
    (∀ e, Act.request .sink 1 .unassigned = .event e →
      (cramped.after Act.crowding).handle e
        = { hub := cramped.after Act.crowding, outcome := .handled (.error .serviceLimit) e }) ∧
    (((cramped.after Act.crowding).withLimits {}).attend (fun _ => .error .general) (Act.bypass 1)
      = ((cramped.after Act.crowding).attend (fun _ => .error .general)
          (Act.bypass 1)).withLimits {}) ∧
    (cramped.after (Act.crowding ++ Act.crowding)).live .sink ≤ 1 := by
  obtain ⟨refused, blind, kept⟩ :=
    @only_contexts_pass_the_quotas cramped ⟨rfl, rfl, rfl⟩ Act.crowding
  refine ⟨?_, blind _ _ _ rfl, ?_⟩
  · rintro _ ⟨⟩
    exact refused _ _ rfl rfl (by decide)
  · exact kept Act.crowding (by decide) .sink

/-- There is room for one sink only, and it is there. A request for another is refused; but when
the context is asked for one by way of the hub, two are there in the end. -/
theorem a_context_passes_the_quota :
    (cramped.after Act.crowding).limits.agents .sink = 1 ∧
      (cramped.after Act.crowding).live .sink = 1 ∧
      ((cramped.after Act.crowding).handle
        { Act.bypass 1 with kind := .createAgent }).outcome.isOk = false ∧
      ((cramped.after Act.crowding).perform (.event (Act.bypass 1))).isOk = false ∧
      ((cramped.after (Act.crowding ++ [.event (Act.bypass 1), .built])).perform
        (Act.grant 8)).isOk = true ∧
      (cramped.after (Act.crowding ++ [.event (Act.bypass 1), .built, Act.grant 8])).live .sink
        = 2 := by
  decide

end Hub

end CastHub
