import CastHub.Proofs.Context
import CastHub.Proofs.Journal
/-!
# Discretion

Sessions may have anything said to anybody in their agent's name, also what only a context should
say: that an agent is gone. A session is *discreet* when it is called if it sends no news of its own
meanwhile. As long as all sessions are, a context says of an agent that it is gone exactly when it
leaves (`Context.notices_agentDestroyed`), and never otherwise.
-/

namespace CastHub

/-- What an agent does says of nobody that it is gone, if its session is discreet meanwhile. -/
def AgentTurn.IsQuiet (t : AgentTurn) : Prop :=
  (∀ s c, .call s c ∈ t.acts → s.isDiscreet c = true) →
    ∀ ⦃m⦄, .report m ∈ t.acts → m.kind ≠ .noticeDestroyed

/-! ## Agents -/

namespace Agent

theorem kind_of_reports {m msg : StatusMsg} (h : m ∈ reports msg) : m.kind = msg.kind := by
  unfold reports at h
  split at h
  · rw [List.mem_singleton.1 h]
  · cases h

theorem kind_of_hearFault {a : Agent} {fault : Fault} {m : StatusMsg}
    (h : m ∈ (a.hearFault fault).2) : m.kind = .noticeError := by
  simp only [hearFault] at h
  exact kind_of_reports h

theorem kind_of_stepDone {a : Agent} {m : StatusMsg} (h : m ∈ a.stepDone.2) :
    m.kind = .noticeStepDone := by
  simp only [stepDone] at h
  exact kind_of_reports h

theorem kind_of_farewell (a : Agent) : a.farewell.kind ≠ .noticeDestroyed := by
  unfold farewell
  split <;> exact EventKind.noConfusion

/-- What an agent makes of its session's news never says that somebody is gone. -/
theorem kind_of_hear {a : Agent} {news : SessionNews} (isOpen : news.isPrivate = false)
    {m : StatusMsg} (h : m ∈ (a.hear news).2) : m.kind ≠ .noticeDestroyed := by
  have done : m ∈ a.stepDone.2 → m.kind ≠ .noticeDestroyed := fun h => by
    rw [kind_of_stepDone h]
    exact EventKind.noConfusion
  cases news with
  | prosumer change =>
    simp only [hear] at h
    rw [kind_of_reports h]
    exact EventKind.noConfusion
  | started => exact done h
  | stopped => exact done h
  | paused => exact done h
  | resumed => exact done h
  | stepDone step => exact done h
  | destroyed =>
    simp only [hear] at h
    rw [kind_of_reports h]
    exact kind_of_farewell a
  | interrupted => cases h
  | error fault =>
    simp only [hear] at h
    rw [kind_of_hearFault h]
    exact EventKind.noConfusion
  | privateNews target kind detail => cases isOpen

theorem kind_of_hearAll {a : Agent} {news : List SessionNews}
    (isOpen : ∀ n ∈ news, n.isPrivate = false) {m : StatusMsg} (h : m ∈ (a.hearAll news).2) :
    m.kind ≠ .noticeDestroyed := by
  induction news generalizing a with
  | nil => cases h
  | cons n rest ih =>
    rcases List.mem_append.1 h with first | later
    · exact kind_of_hear (isOpen n (List.mem_cons_self ..)) first
    · exact ih (fun n mem => isOpen n (List.mem_cons_of_mem _ mem)) later

/-- An agent that does nothing is quiet. -/
theorem quiet_of_nothing (a : Agent) (result : Except Fault Unit) :
    AgentTurn.IsQuiet { agent := a, result } := fun _ _ mem => by cases mem

theorem quiet_overhear (a : Agent) {news : SessionNews} (isOpen : news.isPrivate = false) :
    (a.overhear news).IsQuiet := by
  intro _ m mem
  obtain ⟨_, heard, same⟩ := List.mem_map.1 mem
  obtain rfl := AgentAct.report.inj same
  exact kind_of_hear isOpen heard

theorem quiet_drive (a : Agent) (c : SessionCall) : (a.drive c).IsQuiet := by
  unfold drive
  split
  · exact a.quiet_of_nothing _
  · rename_i s _
    unfold callSession
    split
    · intro discreet m mem
      -- the call itself is among the acts, so its news is open
      have isOpen := List.all_eq_true.1 (discreet s c (List.mem_cons_self ..))
      rcases List.mem_cons.1 mem with call | mem
      · cases call
      · obtain ⟨_, heard, same⟩ := List.mem_map.1 mem
        obtain rfl := AgentAct.report.inj same
        exact kind_of_hearAll (fun n mem => by simpa using isOpen n mem) heard
    · exact a.quiet_of_nothing _

theorem quiet_followedBy {t : AgentTurn} {f : Agent → AgentTurn} (first : t.IsQuiet)
    (second : (f t.agent).IsQuiet) : (t.followedBy f).IsQuiet := by
  intro discreet m mem
  rcases List.mem_append.1 mem with mem | mem
  · exact first (fun s c call => discreet s c (List.mem_append_left _ call)) mem
  · exact second (fun s c call => discreet s c (List.mem_append_right _ call)) mem

theorem quiet_handleStep (a : Agent) (e : Event) (step : RunStep) :
    (a.handleStep e step).IsQuiet := by
  unfold handleStep
  split
  · exact a.quiet_of_nothing _
  · exact a.quiet_of_nothing _
  · rename_i b _
    show AgentTurn.IsQuiet (if _ then _ else _)
    split
    · exact quiet_followedBy (quiet_drive _ _) (quiet_drive _ _)
    · exact quiet_drive _ _

theorem quiet_handle (a : Agent) (e : Event) : (a.handle e).IsQuiet := by
  unfold handle
  split
  · exact a.quiet_of_nothing _
  · split
    · exact a.quiet_drive _
    · intro _ m mem
      obtain ⟨_, heard, same⟩ := List.mem_map.1 mem
      obtain rfl := AgentAct.report.inj same
      rw [kind_of_hearFault heard]
      exact EventKind.noConfusion
    · split
      · exact a.quiet_of_nothing _
      · exact a.quiet_handleStep e _

end Agent

/-! ## Contexts -/

theorem noticesAmong_append (effects more : List Effect) :
    noticesAmong (effects ++ more) = noticesAmong effects ++ noticesAmong more :=
  List.filterMap_append

theorem allDiscreet_append {effects more : List Effect} :
    AllDiscreet (effects ++ more) ↔ AllDiscreet effects ∧ AllDiscreet more :=
  List.forall_mem_append

/-- What is done says of nobody that it is gone, if all sessions are discreet. -/
def IsQuiet (effects : List Effect) : Prop := AllDiscreet effects → noticesAmong effects = []

theorem isQuiet_nil : IsQuiet [] := fun _ => rfl

theorem IsQuiet.append {effects more : List Effect} (h : IsQuiet effects) (h' : IsQuiet more) :
    IsQuiet (effects ++ more) := by
  intro discreet
  obtain ⟨first, second⟩ := allDiscreet_append.1 discreet
  rw [noticesAmong_append, h first, h' second]
  rfl

namespace Context

theorem kind_of_route {c : Context} {m : StatusMsg} {e : Event} (h : c.route m = .ok e) :
    e.kind = m.kind := by
  unfold route at h
  split at h
  · exact Except.ok.inj h ▸ rfl
  · exact Except.ok.inj h ▸ rfl
  · exact Except.ok.inj h ▸ rfl
  · cases h

/-- Others see no notice that no agent has reported. -/
theorem quiet_effects (c : Context) {acts seen : List AgentAct}
    (quiet : (∀ s k, .call s k ∈ acts → s.isDiscreet k = true) →
      ∀ ⦃m⦄, .report m ∈ acts → m.kind ≠ .noticeDestroyed)
    (calls : ∀ {s k}, .call s k ∈ acts → .call s k ∈ seen) (sub : seen ⊆ acts) :
    IsQuiet (seen.filterMap c.effectOf?) := by
  intro discreet
  have quiet := quiet fun s k call => discreet _ (List.mem_filterMap.2 ⟨.call s k, calls call, rfl⟩)
  unfold noticesAmong
  rw [List.filterMap_filterMap, List.filterMap_eq_nil_iff]
  intro act mem
  cases act with
  | call s k => rfl
  | report m =>
    show ((c.route m).toOption.map Effect.post).bind Effect.notice? = none
    cases routed : c.route m with
    | error fault => rfl
    | ok e =>
      show (if e.kind = .noticeDestroyed then some e.payload else none) = none
      rw [kind_of_route routed, if_neg (quiet (sub mem))]

theorem quiet_tell (c : Context) (id : Id) {act : Agent → AgentTurn}
    (quiet : ∀ a, (act a).IsQuiet) : IsQuiet (c.tell id act).effects := by
  unfold tell
  split
  · exact isQuiet_nil
  · rename_i a _
    exact c.quiet_effects (quiet a) (fun call => call) (List.Subset.refl _)

theorem quiet_tellAll (c : Context) (ids : List Id) {act : Agent → AgentTurn}
    (quiet : ∀ a, (act a).IsQuiet) : IsQuiet (c.tellAll act ids).effects := by
  induction ids generalizing c with
  | nil => exact isQuiet_nil
  | cons id rest ih => exact (c.quiet_tell id quiet).append (ih _)

theorem quiet_tellRetired (c : Context) (id : Id) (heard : Bool) {act : Agent → AgentTurn}
    (quiet : ∀ a, (act a).IsQuiet) : IsQuiet (c.tellRetired id heard act).effects := by
  unfold tellRetired
  split
  · exact isQuiet_nil
  · rename_i a _
    refine c.quiet_effects (quiet a) (fun call => ?_) (List.filter_subset_self _)
    exact List.mem_filter.2 ⟨call, rfl⟩

theorem quiet_destroyAgent (c : Context) (e : Event) : IsQuiet (c.destroyAgent e).effects := by
  unfold destroyAgent
  split
  · exact isQuiet_nil
  · split
    · exact isQuiet_nil
    · split
      · exact quiet_tellAll _ _ fun a => a.quiet_handle e
      · exact quiet_tellAll _ _ fun a => a.quiet_handle e

theorem quiet_settleSink (c : Context) (sink : Id) : IsQuiet (c.settleSink sink).effects := by
  unfold settleSink
  split
  · exact isQuiet_nil
  · split
    · exact quiet_tellAll _ _ fun a => a.quiet_handle _
    · exact isQuiet_nil

theorem quiet_afterLeave (c : Context) (id : Id) (a : Agent) :
    IsQuiet (c.afterLeave id a).effects := by
  unfold afterLeave
  split
  · exact quiet_settleSink _ _
  · exact isQuiet_nil

theorem quiet_distribute (c : Context) (e : Event) : IsQuiet (c.distribute e).effects := by
  unfold distribute
  split
  · exact isQuiet_nil
  · exact quiet_tell _ _ fun a => a.quiet_handle e

/-- The notice that an agent is gone, as the client reads it. -/
def partingNotice (context agent : Id) (role : Role) : Payload :=
  .interaction { context, agent, role }

/-- **A context says of an agent that it is gone exactly when it leaves.** -/
theorem notices_agentDestroyed (c : Context) (e : Event)
    (discreet : AllDiscreet (c.agentDestroyed e).effects) :
    noticesAmong (c.agentDestroyed e).effects
      = (c.leaver? e).toList.map fun a => partingNotice c.id a.id a.role := by
  cases leaver : c.leaver? e with
  | none =>
    obtain ⟨_, none, _⟩ := agentDestroyed_of_leaver?_eq_none leaver
    rw [none]
    rfl
  | some a =>
    obtain ⟨id, named, _, _⟩ := leaver?_eq_some.1 leaver
    obtain ⟨same, effects, _⟩ := agentDestroyed_of_leaver? named leaver
    rw [effects] at discreet ⊢
    rw [noticesAmong_append, c.quiet_afterLeave id a (allDiscreet_append.1 discreet).1, ← same]
    show [Payload.interaction { context := (c.agentDestroyed e).context.id, .. }] = _
    rw [(c.remains_agentDestroyed e).id]
    rfl

end Context

end CastHub
