import CastHub.Proofs.Departure
import CastHub.Rehearsal.Agent
import CastHub.Session.Loopback
/-!
# Agents with loopback sessions

A loopback session ends every run-step at once, so an agent that has one keeps nobody waiting. Told
to destroy itself, it bids its context farewell in the same breath, and only then
(`Agent.reports_handle_of_destroy`, `Agent.smallTalk_handle`).

For a context with such agents that means: whoever is doomed has bidden farewell. `Context.Bids`
says so of one operation, and `Context.Bids.trans` of one after another; here are the operations by
which agents are unmade.
-/

namespace CastHub

/-! ## Events on their way -/

/-- The event that an effect sends on its way. -/
def Effect.post? : Effect → Option Event
  | .post e => some e
  | _ => none

/-- The events that are sent on their way, in order. -/
def posts (effects : List Effect) : List Event := effects.filterMap Effect.post?

@[simp] theorem posts_append (effects more : List Effect) :
    posts (effects ++ more) = posts effects ++ posts more := List.filterMap_append

/-- Whose farewell an event carries: a sink's on the way to the media channel and back, a source's
on the way to its context. -/
def Event.farewell? (e : Event) : Option Farewell :=
  match e.target, e.kind with
  | .mediaChannel, .destroyChannel => e.agent?.map (⟨e.src, ·, .sink⟩)
  | .hub, .channelDestroyed => e.agent?.map (⟨e.dst, ·, .sink⟩)
  | .hub, .contextAgentDestroyed => e.agent?.map (⟨e.dst, ·, .source⟩)
  | _, _ => none

/-- Whose farewells are on their way. -/
def farewells (events : List Event) : List Farewell := events.filterMap Event.farewell?

@[simp] theorem farewells_append (events more : List Event) :
    farewells (events ++ more) = farewells events ++ farewells more := List.filterMap_append

theorem farewells_eq_nil {events : List Event} (none : ∀ e ∈ events, e.farewell? = none) :
    farewells events = [] := List.filterMap_eq_nil_iff.2 none

/-- The events that nobody waits for in a service with loopback sessions. -/
inductive Event.IsRoutine (e : Event) : Prop
  /-- A client is told something. -/
  | notice (told : e.target = .interaction)
      (kind : e.kind = .noticeDestroyed ∨ e.kind = .noticeError ∨ e.kind = .noticeStepDone)
  /-- The media channel is asked for a change. -/
  | change (told : e.target = .mediaChannel) (role : Role) (change : MediaChange)
      (kind : e.kind = .changeMedia role change)
  /-- An agent is told of a change. -/
  | changed (told : e.target = .hub) (change : MediaChange) (kind : e.kind = .prosumerState change)
  /-- Somebody bids farewell. -/
  | farewell (f : Farewell) (bids : e.farewell? = some f)

/-! ## Agents -/

/-- The status messages that an agent reports, in order. -/
def AgentTurn.reports (t : AgentTurn) : List StatusMsg := t.acts.filterMap AgentAct.report?

/-- A session of a loopback class. -/
def Session.IsLoopback (s : Session) : Prop := s.cls = Loopback.sessionClass

/-- An agent that has a loopback session. -/
def Agent.IsLoopback (a : Agent) : Prop := ∃ s, a.session = some s ∧ s.IsLoopback

/-- A message about the course of a session, and not about its end. -/
def StatusMsg.IsSmallTalk (m : StatusMsg) : Prop :=
  (m.target = .interaction ∧ (m.kind = .noticeError ∨ m.kind = .noticeStepDone)) ∨
  (m.target = .mediaChannel ∧ ∃ role change, m.kind = .changeMedia role change)

namespace Loopback

/-- The news that a loopback session gives when it is called. -/
def newsOn : SessionCall → List SessionNews
  | .operate step => newsFor step
  | _ => []

theorem news_call {s : Session} (h : s.IsLoopback) (c : SessionCall) :
    (s.call c).1.news = newsOn c := by
  unfold Session.call
  rw [h]
  cases c <;> rfl

theorem isLoopback_call {s : Session} (h : s.IsLoopback) (c : SessionCall) :
    (s.call c).2.IsLoopback := h

theorem accepts {s : Session} (h : s.IsLoopback) (c : SessionCall) : s.accepts c = true := by
  unfold Session.accepts
  rw [h]
  cases c <;> rfl

/-- A loopback session has no news of its own. -/
theorem isDiscreet {s : Session} (h : s.IsLoopback) (c : SessionCall) :
    s.isDiscreet c = true := by
  unfold Session.isDiscreet
  rw [news_call h]
  cases c with
  | operate step => cases step <;> rfl
  | _ => rfl

/-- A loopback session says that it is destroyed when it is told to be, and not otherwise. -/
theorem plain_of_mem_newsOn {c : SessionCall} (other : c ≠ .operate .destroy) {news : SessionNews}
    (mem : news ∈ newsOn c) : news ≠ .destroyed ∧ news.isPrivate = false := by
  cases c with
  | operate step =>
    have plain : (newsFor step).all (fun n => decide (n ≠ .destroyed) && !n.isPrivate) = true := by
      cases step with
      | destroy => exact absurd rfl other
      | _ => rfl
    have isPlain := List.all_eq_true.1 plain news mem
    rw [Bool.and_eq_true, decide_eq_true_eq, Bool.not_eq_true'] at isPlain
    exact isPlain
  | _ => cases mem

end Loopback

namespace Agent

open Loopback (newsOn)

@[simp] theorem session_hear (a : Agent) (news : SessionNews) :
    (a.hear news).1.session = a.session := by
  cases news with
  | error fault =>
    show (if fault.isFatal then a.leave .error else a).session = a.session
    split <;> rfl
  | _ => rfl

@[simp] theorem session_hearAll (a : Agent) (news : List SessionNews) :
    (a.hearAll news).1.session = a.session := by
  induction news generalizing a with
  | nil => rfl
  | cons n rest ih =>
    show ((a.hear n).1.hearAll rest).1.session = a.session
    rw [ih, session_hear]

theorem smallTalk_hearFault (a : Agent) (fault : Fault) :
    ∀ m ∈ (a.hearFault fault).2, m.IsSmallTalk := by
  intro m mem
  obtain rfl := List.mem_singleton.1 mem
  exact .inl ⟨rfl, .inl rfl⟩

theorem smallTalk_stepDone (a : Agent) : ∀ m ∈ a.stepDone.2, m.IsSmallTalk := by
  intro m mem
  obtain rfl := List.mem_singleton.1 mem
  exact .inl ⟨rfl, .inr rfl⟩

theorem smallTalk_hear (a : Agent) {news : SessionNews}
    (plain : news ≠ .destroyed ∧ news.isPrivate = false) :
    ∀ m ∈ (a.hear news).2, m.IsSmallTalk := by
  cases news with
  | prosumer change =>
    intro m mem
    obtain rfl := List.mem_singleton.1 mem
    exact .inr ⟨rfl, a.role, change, rfl⟩
  | destroyed => exact absurd rfl plain.1
  | interrupted =>
    intro m mem
    cases mem
  | error fault => exact a.smallTalk_hearFault fault
  | privateNews target kind detail => cases plain.2
  | _ => exact a.smallTalk_stepDone

theorem smallTalk_hearAll (a : Agent) {news : List SessionNews}
    (plain : ∀ n ∈ news, n ≠ .destroyed ∧ n.isPrivate = false) :
    ∀ m ∈ (a.hearAll news).2, m.IsSmallTalk := by
  induction news generalizing a with
  | nil =>
    intro m mem
    cases mem
  | cons n rest ih =>
    intro m mem
    rcases List.mem_append.1 mem with first | later
    · exact a.smallTalk_hear (plain n (List.mem_cons_self ..)) m first
    · exact ih _ (fun n mem => plain n (List.mem_cons_of_mem _ mem)) m later

/-- A farewell says who it is, and nothing else. -/
theorem farewell_of_same {a b : Agent} (id : b.id = a.id) (role : b.role = a.role) :
    b.farewell = a.farewell := by
  unfold farewell
  rw [role]
  cases a.role <;> simp only [statusMsg, id, role]

theorem reports_farewell (a : Agent) : reports a.farewell = [a.farewell] := by
  unfold reports farewell
  cases a.role <;> rfl

/-! ## Driving a loopback session -/

theorem reports_map_report (s : Session) (c : SessionCall) (msgs : List StatusMsg) :
    (AgentAct.call s c :: msgs.map .report).filterMap AgentAct.report? = msgs := by
  show (msgs.map .report).filterMap AgentAct.report? = msgs
  induction msgs with
  | nil => rfl
  | cons m rest ih => exact congrArg (m :: ·) ih

variable {a : Agent}

/-- What comes of calling a loopback session. -/
theorem drive_of_loopback (h : a.IsLoopback) (c : SessionCall) :
    (a.drive c).agent.IsLoopback ∧
    (∀ s k, .call s k ∈ (a.drive c).acts → s.isDiscreet k = true) ∧
    ∃ b : Agent, b.id = a.id ∧ b.role = a.role ∧ (a.drive c).reports = (b.hearAll (newsOn c)).2 := by
  obtain ⟨s, has, loopback⟩ := h
  have drives : a.drive c = a.callSession s c := by
    unfold drive
    rw [has]
  unfold callSession at drives
  rw [if_pos (Loopback.accepts loopback c)] at drives
  rw [drives]
  refine ⟨⟨(s.call c).2, session_hearAll .., Loopback.isLoopback_call loopback c⟩, ?_, ?_⟩
  · intro t k mem
    rcases List.mem_cons.1 mem with same | later
    · obtain ⟨rfl, rfl⟩ := AgentAct.call.inj same
      exact Loopback.isDiscreet loopback k
    · obtain ⟨_, _, isReport⟩ := List.mem_map.1 later
      cases isReport
  · refine ⟨{ a with session := some (s.call c).2 }, rfl, rfl, ?_⟩
    rw [← Loopback.news_call loopback c]
    exact reports_map_report ..

/-- A loopback session that is not told to be destroyed makes small talk. -/
theorem smallTalk_drive (h : a.IsLoopback) {c : SessionCall} (other : c ≠ .operate .destroy) :
    ∀ m ∈ (a.drive c).reports, m.IsSmallTalk := by
  obtain ⟨_, _, b, _, _, said⟩ := drive_of_loopback h c
  rw [said]
  exact b.smallTalk_hearAll fun n mem => Loopback.plain_of_mem_newsOn other mem

/-- A loopback session that is told to be destroyed has its agent bid farewell. -/
theorem reports_drive_destroy (h : a.IsLoopback) :
    (a.drive (.operate .destroy)).reports = [a.farewell] := by
  obtain ⟨_, _, b, id, role, said⟩ := drive_of_loopback h (.operate .destroy)
  rw [said]
  show reports b.farewell ++ [] = _
  rw [List.append_nil, reports_farewell, farewell_of_same id role]

/-! ## Events for an agent with a loopback session -/

/-- Such an agent keeps such a session, which stays discreet. -/
structure KeepsLoopback (t : AgentTurn) : Prop where
  loopback : t.agent.IsLoopback
  discreet : ∀ s k, .call s k ∈ t.acts → s.isDiscreet k = true

theorem keepsLoopback_nothing (h : a.IsLoopback) (result : Except Fault Unit) :
    KeepsLoopback { agent := a, result } where
  loopback := h
  discreet := by
    intro s k mem
    cases mem

theorem keepsLoopback_drive (h : a.IsLoopback) (c : SessionCall) : KeepsLoopback (a.drive c) := by
  obtain ⟨loopback, discreet, _⟩ := drive_of_loopback h c
  exact ⟨loopback, discreet⟩

theorem keepsLoopback_hearFault (h : a.IsLoopback) (fault : Fault) :
    KeepsLoopback { agent := (a.hearFault fault).1, acts := (a.hearFault fault).2.map .report } where
  loopback := by
    obtain ⟨s, has, loopback⟩ := h
    refine ⟨s, ?_, loopback⟩
    rw [← has]
    exact a.session_hear (.error fault)
  discreet := by
    intro s k mem
    obtain ⟨_, _, isReport⟩ := List.mem_map.1 mem
    cases isReport

/-- Entering a run-step leaves the session alone. -/
theorem isLoopback_of_entered (h : a.IsLoopback) {b : Agent} {step : RunStep}
    (entry : a.enter step = .entered b) : b.IsLoopback ∧ b.id = a.id ∧ b.role = a.role := by
  obtain ⟨-, rfl⟩ := eq_of_entered entry
  exact ⟨h, rfl, rfl⟩

theorem isLoopback_mark (h : a.IsLoopback) (step : RunStep) :
    (if step = .destroy then { a with destroying := true } else a).IsLoopback := by
  split <;> exact h

theorem keepsLoopback_handleStep (h : a.IsLoopback) (e : Event) (step : RunStep) :
    KeepsLoopback (a.handleStep e step) := by
  unfold handleStep
  split
  · exact keepsLoopback_nothing h _
  · exact keepsLoopback_nothing h _
  · rename_i b entry
    have loopback := isLoopback_mark (isLoopback_of_entered h entry).1 step
    show KeepsLoopback (if _ then _ else _)
    split
    · have shown := keepsLoopback_drive loopback (.privateEvent e)
      have driven := keepsLoopback_drive shown.loopback (.operate step)
      refine ⟨driven.loopback, ?_⟩
      intro s k mem
      rcases List.mem_append.1 mem with first | later
      · exact shown.discreet s k first
      · exact driven.discreet s k later
    · exact keepsLoopback_drive loopback _

theorem keepsLoopback_handle (h : a.IsLoopback) (e : Event) : KeepsLoopback (a.handle e) := by
  unfold handle
  split
  · exact keepsLoopback_nothing h _
  · split
    · exact keepsLoopback_drive h _
    · exact keepsLoopback_hearFault h _
    · split
      · exact keepsLoopback_nothing h _
      · exact keepsLoopback_handleStep h e _

/-- A run-step other than destruction gives rise to small talk. -/
theorem smallTalk_handleStep (h : a.IsLoopback) (e : Event) {step : RunStep}
    (other : step ≠ .destroy) : ∀ m ∈ (a.handleStep e step).reports, m.IsSmallTalk := by
  have quiet : ∀ {result}, ∀ m ∈ AgentTurn.reports { agent := a, result }, m.IsSmallTalk := by
    intro _ m mem
    cases mem
  unfold handleStep
  split
  · exact quiet
  · exact quiet
  · rename_i b entry
    have loopback := (isLoopback_of_entered h entry).1
    have operates : SessionCall.operate step ≠ .operate .destroy :=
      fun same => other (SessionCall.operate.inj same)
    intro m mem
    change m ∈ AgentTurn.reports (if step = .appendSurface ∨ step = .removeSurface then _ else _)
      at mem
    split at mem
    · unfold AgentTurn.reports AgentTurn.followedBy at mem
      rw [List.filterMap_append] at mem
      rcases List.mem_append.1 mem with first | later
      · exact smallTalk_drive loopback (c := .privateEvent e) (by rintro ⟨⟩) m first
      · exact smallTalk_drive (keepsLoopback_drive loopback _).loopback operates m later
    · exact smallTalk_drive loopback operates m mem

/-- **Only an event that asks for destruction makes such an agent bid farewell.** -/
theorem smallTalk_handle (h : a.IsLoopback) {e : Event} (other : e.kind.step ≠ .destroy) :
    ∀ m ∈ (a.handle e).reports, m.IsSmallTalk := by
  have quiet : ∀ {result}, ∀ m ∈ AgentTurn.reports { agent := a, result }, m.IsSmallTalk := by
    intro _ m mem
    cases mem
  unfold handle
  split
  · exact quiet
  · split
    · exact smallTalk_drive h SessionCall.noConfusion
    · intro m mem
      apply a.smallTalk_hearFault (faultOf e)
      obtain ⟨act, isAct, isReport⟩ := List.mem_filterMap.1 mem
      obtain ⟨n, said, rfl⟩ := List.mem_map.1 isAct
      obtain rfl := Option.some.inj isReport
      exact said
    · split
      · exact quiet
      · exact smallTalk_handleStep h e other

/-- An agent that is told of a change of its media object has nothing to say. -/
theorem reports_handle_of_changed (h : a.IsLoopback) {e : Event} {change : MediaChange}
    (kind : e.kind = .prosumerState change) : (a.handle e).reports = [] := by
  unfold handle
  split
  · rfl
  · simp only [kind]
    obtain ⟨_, _, b, _, _, said⟩ := drive_of_loopback h (.media change)
    exact said

/-- **An agent that is asked for its destruction bids farewell**, unless it has done so. -/
theorem reports_handle_of_destroy (h : a.IsLoopback) {e : Event} (asks : e.kind.step = .destroy) :
    (a.handle e).reports = if a.step = .destroy then [] else [a.farewell] := by
  have handles : a.handle e = a.handleStep e .destroy := by
    have kinds := EventKind.step_eq_destroy_iff.1 asks
    have related : e.kind.isDestroyRelated = true := by
      rcases kinds with kind | kind <;> rw [kind] <;> rfl
    unfold handle
    rw [if_neg fun refused => refused.2 related]
    rcases kinds with kind | kind <;> rw [kind] <;> rfl
  rw [handles]
  unfold handleStep
  by_cases destroyed : a.step = .destroy
  · rw [if_pos destroyed]
    unfold enter
    rw [if_pos destroyed]
    -- refused or absorbed, it says nothing
    split <;> rename_i entry
    · rfl
    · rfl
    · split at entry <;> cases entry
  · rw [if_neg destroyed, enter_destroy destroyed]
    exact reports_drive_destroy (a := { a with
      step := .destroy, status := .running, destroying := true }) h

end Agent

/-! ## What contexts pass on -/

namespace Context

/-- Every agent stands under its own identity and has a loopback session. -/
def Staffed (c : Context) : Prop :=
  ∀ ⦃id a⦄, c.agents.get? id = some a → a.id = id ∧ a.IsLoopback

/-- Others see the events that an agent's reports become. -/
theorem posts_effects (c : Context) (acts : List AgentAct) :
    posts (acts.filterMap c.effectOf?)
      = (acts.filterMap AgentAct.report?).filterMap fun m => (c.route m).toOption := by
  unfold posts
  rw [List.filterMap_filterMap, List.filterMap_filterMap]
  congr 1
  funext act
  cases act with
  | call s k => rfl
  | report m =>
    show ((c.route m).toOption.map Effect.post).bind Effect.post? = (c.route m).toOption
    cases (c.route m).toOption <;> rfl

theorem discreet_effects (c : Context) {acts : List AgentAct}
    (discreet : ∀ s k, .call s k ∈ acts → s.isDiscreet k = true) :
    AllDiscreet (acts.filterMap c.effectOf?) := by
  intro effect mem
  obtain ⟨act, isAct, seen⟩ := List.mem_filterMap.1 mem
  cases act with
  | call s k =>
    obtain rfl := Option.some.inj seen
    exact discreet s k isAct
  | report m =>
    obtain ⟨e, _, rfl⟩ := Option.map_eq_some_iff.1 seen
    rfl

theorem routine_of_smallTalk {c : Context} {m : StatusMsg} (talk : m.IsSmallTalk) {e : Event}
    (routed : c.route m = .ok e) : e.IsRoutine ∧ e.farewell? = none := by
  rcases talk with ⟨told, kind⟩ | ⟨told, role, change, kind⟩
  · simp only [route, told] at routed
    obtain rfl := Except.ok.inj routed
    exact ⟨.notice rfl (.inr kind), rfl⟩
  · simp only [route, told] at routed
    obtain rfl := Except.ok.inj routed
    refine ⟨.change rfl role change kind, ?_⟩
    simp only [Event.farewell?, kind]

/-- A farewell is on its way to the media channel if it is a sink's, and else to its context. -/
theorem route_farewell (c : Context) (a : Agent) :
    ∃ e, c.route a.farewell = .ok e ∧ e.farewell? = some ⟨c.id, a.id, a.role⟩ ∧
      (a.role = .sink → e.kind = .destroyChannel) := by
  unfold Agent.farewell
  cases a.role with
  | sink => exact ⟨_, rfl, rfl, fun _ => rfl⟩
  | source => exact ⟨_, rfl, rfl, fun isSink => by cases isSink⟩

/-- What small talk becomes is routine. -/
theorem routine_of_reports (c : Context) {acts : List AgentAct}
    (talk : ∀ m ∈ acts.filterMap AgentAct.report?, m.IsSmallTalk) :
    ∀ e ∈ posts (acts.filterMap c.effectOf?), e.IsRoutine ∧ e.farewell? = none := by
  intro e mem
  rw [posts_effects] at mem
  obtain ⟨m, said, routed⟩ := List.mem_filterMap.1 mem
  cases sent : c.route m with
  | error fault =>
    rw [sent] at routed
    cases routed
  | ok e' =>
    rw [sent] at routed
    obtain rfl := Option.some.inj routed
    exact routine_of_smallTalk (talk m said) sent

/-! ## Farewells in one context -/

/-- What is known of an operation on a context with loopback sessions: nobody comes, and whoever is
doomed bids farewell once it is. -/
structure Bids (c : Context) (effects : List Effect) (c' : Context) : Prop where
  staffed : c'.Staffed
  discreet : AllDiscreet effects
  routine : ∀ e ∈ posts effects, e.IsRoutine
  wanes : c.roster.Wanes c'.roster
  /-- Whoever is doomed was doomed before, or bids farewell. -/
  owed : ∀ ⦃id m'⦄, c'.roster.get? id = some m' → m'.doomed = true →
    (∃ m, c.roster.get? id = some m ∧ m.doomed = true) ∨
      ⟨c.id, id, m'.role⟩ ∈ farewells (posts effects)
  /-- Whoever bids farewell was there and not doomed, and if it still is there, it is doomed. -/
  bid : ∀ f ∈ farewells (posts effects), f.context = c.id ∧
    (∃ m, c.roster.get? f.agent = some m ∧ m.doomed = false) ∧
    ∀ ⦃m'⦄, c'.roster.get? f.agent = some m' → m'.role = f.role ∧ m'.doomed = true
  /-- Nobody bids farewell twice. -/
  once : (farewells (posts effects)).Nodup

/-- Nobody bids farewell, and nobody is doomed who was not before. -/
theorem Bids.of_quiet {c c' : Context} {effects : List Effect} (staffed : c'.Staffed)
    (discreet : AllDiscreet effects)
    (routine : ∀ e ∈ posts effects, e.IsRoutine ∧ e.farewell? = none)
    (wanes : c.roster.Wanes c'.roster)
    (spared : ∀ ⦃id m'⦄, c'.roster.get? id = some m' → m'.doomed = true →
      ∃ m, c.roster.get? id = some m ∧ m.doomed = true) : c.Bids effects c' where
  staffed := staffed
  discreet := discreet
  routine := fun e mem => (routine e mem).1
  wanes := wanes
  owed := fun _ _ there doomed => .inl (spared there doomed)
  bid := by
    rw [farewells_eq_nil fun e posted => (routine e posted).2]
    rintro _ ⟨⟩
  once := by
    rw [farewells_eq_nil fun e posted => (routine e posted).2]
    exact List.nodup_nil

theorem Staffed.rests {c : Context} (h : c.Staffed) : c.Bids [] c :=
  .of_quiet h (by rintro _ ⟨⟩) (by rintro _ ⟨⟩) (.refl _) fun _ m there doomed => ⟨m, there, doomed⟩

/-- One operation and then another. -/
theorem Bids.trans {a b c : Context} {first second : List Effect} (h : a.Bids first b)
    (h' : b.Bids second c) (same : b.id = a.id) : a.Bids (first ++ second) c where
  staffed := h'.staffed
  discreet := allDiscreet_append.2 ⟨h.discreet, h'.discreet⟩
  routine := by
    intro e mem
    rw [posts_append] at mem
    rcases List.mem_append.1 mem with sooner | later
    · exact h.routine e sooner
    · exact h'.routine e later
  wanes := h.wanes.trans h'.wanes
  owed := by
    intro id m' there doomed
    rw [posts_append, farewells_append, List.mem_append]
    rcases h'.owed there doomed with ⟨n, between, was⟩ | now
    · -- it has not changed its role meanwhile
      obtain ⟨o, isIt, ages⟩ := h'.wanes there
      rw [between] at isIt
      obtain rfl := Option.some.inj isIt
      have role : m'.role = n.role := by rw [← Member.role_who, ages.who, Member.role_who]
      rw [role]
      exact (h.owed between was).imp_right .inl
    · exact .inr (.inr (same ▸ now))
  bid := by
    intro f mem
    rw [posts_append, farewells_append] at mem
    rcases List.mem_append.1 mem with sooner | later
    · obtain ⟨context, known, doomed⟩ := h.bid f sooner
      refine ⟨context, known, ?_⟩
      intro m' there
      obtain ⟨n, between, ages⟩ := h'.wanes there
      obtain ⟨role, was⟩ := doomed between
      refine ⟨?_, ages.doomed was⟩
      rw [← Member.role_who, ages.who, Member.role_who, role]
    · obtain ⟨context, ⟨n, between, spared⟩, doomed⟩ := h'.bid f later
      obtain ⟨m, here, ages⟩ := h.wanes between
      refine ⟨context.trans same, ⟨m, here, Bool.eq_false_iff.2 fun was => ?_⟩, doomed⟩
      rw [ages.doomed was] at spared
      cases spared
  once := by
    rw [posts_append, farewells_append]
    refine List.nodup_append.2 ⟨h.once, h'.once, fun f sooner g later same => ?_⟩
    -- whoever has bidden farewell is doomed, so it does not begin to bid it
    subst same
    obtain ⟨_, ⟨n, between, spared⟩, _⟩ := h'.bid f later
    rw [((h.bid f sooner).2.2 between).2] at spared
    cases spared

/-! ## Speaking to agents -/

variable {c : Context} {e : Event}

theorem tell_of_here {id : Id} {a : Agent} (here : c.agents.get? id = some a)
    (act : Agent → AgentTurn) : c.tell id act
      = { context := { c with agents := c.agents.put id (act a).agent }
          effects := (act a).acts.filterMap c.effectOf?
          result := (act a).result } := by
  unfold tell
  rw [here]

theorem tell_of_missing {id : Id} (missing : c.agents.get? id = none) (act : Agent → AgentTurn) :
    c.tell id act = { context := c } := by
  unfold tell
  rw [missing]

theorem Staffed.tell (h : c.Staffed) (id : Id) (e : Event) :
    (c.tell id (·.handle e)).context.Staffed ∧ AllDiscreet (c.tell id (·.handle e)).effects := by
  cases here : c.agents.get? id with
  | none =>
    rw [tell_of_missing here]
    exact ⟨h, by rintro _ ⟨⟩⟩
  | some a =>
    rw [tell_of_here here]
    obtain ⟨keyed, loopback⟩ := h here
    have keeps := Agent.keepsLoopback_handle loopback e
    refine ⟨?_, c.discreet_effects keeps.discreet⟩
    intro k b there
    rcases Table.get?_put_cases there with ⟨rfl, rfl⟩ | before
    · refine ⟨?_, keeps.loopback⟩
      have same : (a.handle e).agent.member.who.id = a.member.who.id := by
        rw [Agent.member_handle]
        split
        · rw [Member.who_doom]
        · rfl
      exact same.trans keyed
    · exact h before

/-- The farewells in a context in which an agent is asked for its destruction. -/
theorem Staffed.posts_tell (h : c.Staffed) {id : Id} {a : Agent} (here : c.agents.get? id = some a)
    (asks : e.kind.step = .destroy) :
    (a.step = .destroy ∧ posts (c.tell id (·.handle e)).effects = []) ∨
    (a.step ≠ .destroy ∧ ∃ post, posts (c.tell id (·.handle e)).effects = [post] ∧
      post.farewell? = some ⟨c.id, id, a.role⟩ ∧ (a.role = .sink → post.kind = .destroyChannel)) := by
  obtain ⟨keyed, loopback⟩ := h here
  have said := Agent.reports_handle_of_destroy loopback asks
  unfold AgentTurn.reports at said
  rw [tell_of_here here, posts_effects, said]
  by_cases destroyed : a.step = .destroy
  · rw [if_pos destroyed]
    exact .inl ⟨destroyed, rfl⟩
  · rw [if_neg destroyed]
    obtain ⟨post, routed, bids, kind⟩ := c.route_farewell a
    rw [keyed] at bids
    refine .inr ⟨destroyed, post, ?_, bids, kind⟩
    rw [List.filterMap_cons, routed]
    rfl

/-- Somebody is asked for its destruction. -/
theorem Staffed.bids_tell (h : c.Staffed) (id : Id) (asks : e.kind.step = .destroy) :
    c.Bids (c.tell id (·.handle e)).effects (c.tell id (·.handle e)).context := by
  cases here : c.agents.get? id with
  | none =>
    rw [tell_of_missing here]
    exact h.rests
  | some a =>
    have member := member_of_agent here
    have becomes : (c.tell id (·.handle e)).context.roster = c.roster.doomAll [id] :=
      roster_tell (Agent.member_handle_of_destroy asks)
    -- only the one that is asked is doomed
    have other : ∀ {k m'}, Table.get? (c.roster.doomAll [id]) k = some m' → k ≠ id →
        c.roster.get? k = some m' := by
      intro k m' there apart
      rwa [Roster.get?_doomAll, if_neg (by simpa using apart)] at there
    have itself : Table.get? (c.roster.doomAll [id]) id = some a.member.doom := by
      rw [Roster.get?_doomAll, if_pos (List.mem_singleton_self _), member]
      rfl
    obtain ⟨staffed, discreet⟩ := h.tell id e
    have wanes : c.roster.Wanes (c.tell id (·.handle e)).context.roster := by
      rw [becomes]
      exact Roster.wanes_doomAll ..
    rcases h.posts_tell here asks with ⟨destroyed, none⟩ | ⟨alive, post, one, bids, _⟩
    · refine .of_quiet staffed discreet ?_ wanes ?_
      · rw [none]
        rintro _ ⟨⟩
      · intro k m' there doomed
        rw [becomes] at there
        by_cases same : k = id
        · rw [same]
          exact ⟨a.member, member, decide_eq_true destroyed⟩
        · exact ⟨m', other there same, doomed⟩
    · have farewell : farewells (posts (c.tell id (·.handle e)).effects) = [⟨c.id, id, a.role⟩] := by
        rw [one]
        unfold farewells
        rw [List.filterMap_cons, bids]
        rfl
      refine ⟨staffed, discreet, ?_, wanes, ?_, ?_, farewell ▸ List.nodup_singleton _⟩
      · rw [one]
        intro e' mem
        obtain rfl := List.mem_singleton.1 mem
        exact .farewell _ bids
      · intro k m' there doomed
        rw [becomes] at there
        rw [farewell, List.mem_singleton]
        by_cases same : k = id
        · rw [same, itself] at there
          obtain rfl := Option.some.inj there
          have role : a.member.doom.role = a.role := Member.role_doom _
          rw [same, role]
          exact .inr rfl
        · exact .inl ⟨m', other there same, doomed⟩
      · rw [farewell]
        intro f mem
        obtain rfl := List.mem_singleton.1 mem
        refine ⟨rfl, ⟨a.member, member, decide_eq_false alive⟩, ?_⟩
        intro m' there
        rw [becomes, itself] at there
        obtain rfl := Option.some.inj there
        exact ⟨Member.role_doom _, Member.doomed_doom _⟩

/-- Several are asked for their destruction. -/
theorem Staffed.bids_tellAll (h : c.Staffed) (ids : List Id) (asks : e.kind.step = .destroy) :
    c.Bids (c.tellAll (·.handle e) ids).effects (c.tellAll (·.handle e) ids).context := by
  induction ids generalizing c with
  | nil => exact h.rests
  | cons id rest ih =>
    have first := h.bids_tell id asks
    exact first.trans (ih first.staffed) (c.remains_tell id _).id

/-- Somebody is told something else. -/
theorem Staffed.bids_distribute (h : c.Staffed) (sorted : c.roster.Sorted)
    (other : e.kind.step ≠ .destroy) :
    c.Bids (c.distribute e).effects (c.distribute e).context := by
  have same := roster_distribute sorted other
  unfold distribute at same ⊢
  split
  · exact h.rests
  · rename_i id named
    rw [named] at same
    simp only at same
    obtain ⟨staffed, discreet⟩ := h.tell id e
    refine .of_quiet staffed discreet ?_ ?_ ?_
    · cases here : c.agents.get? id with
      | none =>
        rw [tell_of_missing here]
        rintro _ ⟨⟩
      | some a =>
        rw [tell_of_here here]
        exact c.routine_of_reports (Agent.smallTalk_handle (h here).2 other)
    · rw [same]
      exact .refl _
    · rw [same]
      exact fun _ m' there doomed => ⟨m', there, doomed⟩

/-! ## Unmaking agents -/

theorem Staffed.bids_mark (h : c.Staffed) {id : Id} {a : Agent} (here : c.agents.get? id = some a) :
    c.Bids [] (c.mark id a) := by
  have becomes : (c.mark id a).roster = c.roster.mark id := by
    unfold Roster.mark Table.update
    rw [member_of_agent here]
    exact Table.mapValues_put ..
  refine .of_quiet ?_ (by rintro _ ⟨⟩) (by rintro _ ⟨⟩) ?_ ?_
  · intro k b there
    rcases Table.get?_put_cases there with ⟨rfl, rfl⟩ | before
    · exact ⟨(h here).1, (h here).2⟩
    · exact h before
  · rw [becomes]
    exact Roster.wanes_mark ..
  · rw [becomes]
    intro k m' there doomed
    rw [Roster.get?_mark] at there
    split at there
    · obtain ⟨m, before, rfl⟩ := Option.map_eq_some_iff.1 there
      exact ⟨m, before, doomed⟩
    · exact ⟨m', there, doomed⟩

theorem Staffed.bids_destroyAgent (h : c.Staffed) (asks : e.kind.step = .destroy) :
    c.Bids (c.destroyAgent e).effects (c.destroyAgent e).context := by
  unfold destroyAgent
  split
  · exact h.rests
  · split
    · exact h.rests
    · rename_i a here
      split
      · exact h.bids_tellAll _ asks
      · have marked := h.bids_mark here
        exact marked.trans (marked.staffed.bids_tellAll _ asks) rfl

theorem Staffed.bids_retire (h : c.Staffed) (id : Id) (a : Agent) : c.Bids [] (c.retire id a) := by
  have becomes : (c.retire id a).roster = c.roster.erase id := Table.mapValues_erase ..
  refine .of_quiet ?_ (by rintro _ ⟨⟩) (by rintro _ ⟨⟩) ?_ ?_
  · intro k b there
    exact h (Table.get?_of_get?_erase there)
  · rw [becomes]
    exact Roster.wanes_erase ..
  · rw [becomes]
    intro k m' there doomed
    exact ⟨m', Table.get?_of_get?_erase there, doomed⟩

theorem Staffed.bids_settleSink (h : c.Staffed) (sink : Id) :
    c.Bids (c.settleSink sink).effects (c.settleSink sink).context := by
  unfold settleSink
  split
  · exact h.rests
  · split
    · exact h.bids_tellAll [sink] rfl
    · exact h.rests

/-- The notice that an agent is gone is no farewell. -/
theorem routine_goneNotice (c : Context) (a : Agent) :
    (c.goneNotice a).IsRoutine ∧ (c.goneNotice a).farewell? = none :=
  ⟨.notice rfl (.inl rfl), rfl⟩

theorem Staffed.bids_notice (h : c.Staffed) (a : Agent) : c.Bids [.post (c.goneNotice a)] c := by
  refine .of_quiet h ?_ ?_ (.refl _) fun _ m there doomed => ⟨m, there, doomed⟩
  · intro effect mem
    obtain rfl := List.mem_singleton.1 mem
    rfl
  · intro e mem
    obtain rfl := List.mem_singleton.1 mem
    exact c.routine_goneNotice a

theorem Staffed.bids_afterLeave (h : c.Staffed) (id : Id) (a : Agent) :
    c.Bids (c.afterLeave id a).effects (c.afterLeave id a).context := by
  have retired := h.bids_retire id a
  unfold afterLeave
  split
  · exact retired.trans (retired.staffed.bids_settleSink a.sink) rfl
  · exact retired

theorem Staffed.bids_agentDestroyed (h : c.Staffed) (e : Event) :
    c.Bids (c.agentDestroyed e).effects (c.agentDestroyed e).context := by
  cases leaver : c.leaver? e with
  | none =>
    obtain ⟨same, silent, _⟩ := agentDestroyed_of_leaver?_eq_none leaver
    rw [same, silent]
    exact h.rests
  | some a =>
    obtain ⟨id, named, _, _⟩ := leaver?_eq_some.1 leaver
    obtain ⟨after, effects, _⟩ := agentDestroyed_of_leaver? named leaver
    have left := h.bids_afterLeave id a
    have same : (c.agentDestroyed e).context.id = c.id := (c.remains_agentDestroyed e).id
    rw [effects, after]
    exact left.trans (left.staffed.bids_notice a) (after ▸ same)

/-- **In a context with loopback sessions, whoever is doomed bids farewell**, whatever the context
is sent. -/
theorem Staffed.bids_carryOut (h : c.Staffed) (sorted : c.roster.Sorted) (e : Event) :
    c.Bids (c.carryOut e).effects (c.carryOut e).context := by
  unfold carryOut
  split
  · rename_i kind
    exact h.bids_destroyAgent (EventKind.step_eq_destroy_iff.2 (.inl kind))
  · rename_i kind
    exact h.bids_destroyAgent (EventKind.step_eq_destroy_iff.2 (.inr kind))
  · exact h.bids_agentDestroyed e
  · rename_i notContext notOwn _
    refine h.bids_distribute sorted fun asks => ?_
    exact (EventKind.step_eq_destroy_iff.1 asks).elim notContext notOwn

end Context

end CastHub
