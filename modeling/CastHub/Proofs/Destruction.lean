import CastHub.Proofs.Member
import CastHub.Rehearsal.Agent
import CastHub.Session.Loopback
/-!
# Destruction is final

Whatever befalls an agent, destruction is the last thing that its session is told to do
(`Agent.destruction_is_final`). What can befall it is an `Episode`: an event, a run-step asked for
or ended by hand, news of the session at any time, its faults, a session being attached. What the
session says while it is driven is part of the episode that drives it, and may be anything.

One turn of an agent takes one of two courses (`Course`): the session is not driven, and
destruction is not left; or the agent was not being destroyed, and its session is told once, and
told the very step that the agent is in afterwards. All the rest is an induction on the life.
-/

namespace CastHub

/-! ## Episodes -/

/-- What can befall an agent. -/
inductive Episode where
  /-- Something is done to it; `listener` is how it ends when its listener is handed a message. -/
  | act (action : AgentAction) (listener : Except Fault Unit)
  /-- It is given a session. -/
  | attach (session : Session)

/-- What an episode comes to. An agent that has a session keeps it. -/
def Episode.run (a : Agent) : Episode → AgentTurn
  | act action listener => (action.run listener a).1
  | attach s =>
    match a.attach s with
    | .ok b => { agent := b }
    | .error fault => { agent := a, result := .error fault }

namespace Agent

/-- The agent after several episodes. -/
def after (a : Agent) : List Episode → Agent
  | [] => a
  | e :: rest => (e.run a).agent.after rest

/-- Everything that the agent does in several episodes. -/
def deeds (a : Agent) : List Episode → List AgentAct
  | [] => []
  | e :: rest => (e.run a).acts ++ (e.run a).agent.deeds rest

theorem after_append (a : Agent) (earlier later : List Episode) :
    a.after (earlier ++ later) = (a.after earlier).after later := by
  induction earlier generalizing a with
  | nil => rfl
  | cons e rest ih => exact ih (e.run a).agent

end Agent

/-! ## What the session is told to do -/

/-- The run-step that the session is told to enter. -/
def AgentAct.operation? : AgentAct → Option RunStep
  | .call _ (.operate step) => some step
  | _ => none

/-- The run-steps that the session is told to enter, in order. -/
def operations (acts : List AgentAct) : List RunStep := acts.filterMap AgentAct.operation?

@[simp] theorem operations_nil : operations [] = [] := rfl

@[simp] theorem operations_append (earlier later : List AgentAct) :
    operations (earlier ++ later) = operations earlier ++ operations later :=
  List.filterMap_append

@[simp] theorem operations_map_report (msgs : List StatusMsg) :
    operations (msgs.map .report) = [] := by
  induction msgs with
  | nil => rfl
  | cons msg rest ih => exact ih

namespace Agent

/-! ## News and calls leave the run-step as it is -/

@[simp] theorem step_hearFault (a : Agent) (fault : Fault) :
    (a.hearFault fault).1.step = a.step := by
  show (if fault.isFatal then a.leave .error else a).step = a.step
  split <;> rfl

@[simp] theorem step_hear (a : Agent) (news : SessionNews) : (a.hear news).1.step = a.step := by
  cases news with
  | error fault => exact a.step_hearFault fault
  | _ => rfl

@[simp] theorem step_hearAll (a : Agent) (news : List SessionNews) :
    (a.hearAll news).1.step = a.step := by
  induction news generalizing a with
  | nil => rfl
  | cons n rest ih =>
    show ((a.hear n).1.hearAll rest).1.step = a.step
    rw [ih, step_hear]

@[simp] theorem step_drive (a : Agent) (c : SessionCall) : (a.drive c).agent.step = a.step := by
  unfold drive
  split
  · rfl
  · unfold callSession
    split
    · exact step_hearAll _ _
    · rfl

/-- A session is told to enter a step by the call that says so, and by no other. An agent without a
session tells nobody. -/
theorem operations_drive (a : Agent) (c : SessionCall) :
    operations (a.drive c).acts = [] ∨
      ∃ step, c = .operate step ∧ operations (a.drive c).acts = [step] := by
  unfold drive
  split
  · exact .inl rfl
  · rename_i s _
    unfold callSession
    split
    · have told : ∀ msgs : List StatusMsg, operations (.call s c :: msgs.map .report)
          = (AgentAct.operation? (.call s c)).toList := by
        intro msgs
        show operations ([.call s c] ++ msgs.map .report) = _
        rw [operations_append, operations_map_report, List.append_nil]
        cases c <;> rfl
      show operations (.call s c :: List.map _ _) = _ ∨ _
      rw [told]
      cases c with
      | operate step => exact .inr ⟨step, rfl, rfl⟩
      | media change => exact .inl rfl
      | privateEvent e => exact .inl rfl
    · exact .inl rfl

/-! ## One turn -/

/-- The two courses that a turn of an agent can take. -/
inductive Course (a : Agent) (t : AgentTurn) : Prop where
  /-- The session is not told to do anything, and destruction is not left. -/
  | silent (quiet : operations t.acts = []) (stays : a.step = .destroy → t.agent.step = .destroy)
  /-- An agent that was not being destroyed tells its session the step that it is in now. -/
  | told (alive : a.step ≠ .destroy) (said : operations t.acts = [t.agent.step])

theorem Course.stays {a : Agent} {t : AgentTurn} (h : a.Course t) (destroyed : a.step = .destroy) :
    t.agent.step = .destroy ∧ operations t.acts = [] := by
  cases h with
  | silent quiet stays => exact ⟨stays destroyed, quiet⟩
  | told alive => exact absurd destroyed alive

/-- A turn that leaves the run-step alone, and the session too. -/
theorem Course.of_same {a : Agent} {t : AgentTurn} (step : t.agent.step = a.step)
    (quiet : operations t.acts = []) : a.Course t :=
  .silent quiet fun destroyed => step.trans destroyed

/-- Driving the session into the step that the agent has just entered. -/
theorem operations_drive_entered {b : Agent} {step : RunStep} (h : b.step = step) :
    operations (b.drive (.operate step)).acts = [] ∨
      operations (b.drive (.operate step)).acts = [(b.drive (.operate step)).agent.step] := by
  rcases b.operations_drive (.operate step) with quiet | ⟨said, is, told⟩
  · exact .inl quiet
  · obtain rfl := SessionCall.operate.inj is
    rw [step_drive, h]
    exact .inr told

theorem course_handleStep (a : Agent) (e : Event) (step : RunStep) :
    a.Course (a.handleStep e step) := by
  cases entry : a.enter step with
  | refused fault => simpa only [handleStep, entry] using Course.of_same (a := a) rfl rfl
  | absorbed => simpa only [handleStep, entry] using Course.of_same (a := a) rfl rfl
  | entered b =>
    obtain ⟨alive, entered⟩ := eq_of_entered entry
    have now : b.step = step := by rw [entered]
    simp only [handleStep, entry]
    -- marking the agent as one that goes does not touch its run-step
    generalize marked : (if step = .destroy then { b with destroying := true } else b) = d
    have now : d.step = step := by
      rw [← marked]
      split <;> exact now
    have one : ∀ {t : AgentTurn},
        operations t.acts = [] ∨ operations t.acts = [t.agent.step] → a.Course t := by
      rintro t (quiet | said)
      · exact .silent quiet fun destroyed => absurd destroyed alive
      · exact .told alive said
    split
    · -- showing the event to the session first is a private event, which tells it no step
      have shown : operations (d.drive (.privateEvent e)).acts = [] := by
        rcases d.operations_drive (.privateEvent e) with quiet | ⟨_, is, _⟩
        · exact quiet
        · cases is
      apply one
      have driven := operations_drive_entered ((d.step_drive (.privateEvent e)).trans now)
      simpa only [AgentTurn.followedBy, operations_append, shown, List.nil_append] using driven
    · exact one (operations_drive_entered now)

theorem course_handle (a : Agent) (e : Event) : a.Course (a.handle e) := by
  unfold handle
  split
  · exact .of_same rfl rfl
  · split
    · rename_i change _
      rcases a.operations_drive (.media change) with quiet | ⟨_, is, _⟩
      · exact .of_same (a.step_drive _) quiet
      · cases is
    · exact .of_same (a.step_hearFault _) (operations_map_report _)
    · split
      · exact .of_same rfl rfl
      · exact course_handleStep a e _

/-- Whatever befalls an agent takes one of the two courses. -/
theorem course_run (a : Agent) (episode : Episode) : a.Course (episode.run a) := by
  cases episode with
  | attach s =>
    simp only [Episode.run, Agent.attach]
    cases a.session <;> exact .of_same rfl rfl
  | act action listener =>
    cases action with
    | enter step =>
      cases entry : a.enter step with
      | refused fault =>
        simpa only [Episode.run, AgentAction.run, entry] using Course.of_same (a := a) rfl rfl
      | absorbed =>
        simpa only [Episode.run, AgentAction.run, entry] using Course.of_same (a := a) rfl rfl
      | entered b =>
        simp only [Episode.run, AgentAction.run, entry]
        exact .silent rfl fun destroyed => absurd destroyed (eq_of_entered entry).1
    | leave status => exact .of_same rfl rfl
    | handle e => exact course_handle a e
    | hear news => exact .of_same (a.step_hear news) (operations_map_report _)
    | hearFault fault => exact .of_same (a.step_hearFault fault) (operations_map_report _)
    | announce msg =>
      simp only [Episode.run, AgentAction.run]
      split <;> exact .of_same rfl rfl
    | setDestroying => exact .of_same rfl rfl
    | setChannel channel => exact .of_same rfl rfl

/-! ## A whole life -/

/-- An agent that is being destroyed remains so, and leaves its session alone. -/
theorem stays_destroyed {a : Agent} (h : a.step = .destroy) (life : List Episode) :
    (a.after life).step = .destroy ∧ operations (a.deeds life) = [] := by
  induction life generalizing a with
  | nil => exact ⟨h, rfl⟩
  | cons e rest ih =>
    obtain ⟨still, quiet⟩ := (a.course_run e).stays h
    obtain ⟨always, silent⟩ := ih still
    refine ⟨always, ?_⟩
    show operations ((e.run a).acts ++ (e.run a).agent.deeds rest) = []
    rw [operations_append, quiet, silent, List.append_nil]

/-- Nothing is said to the session after it was told to destroy itself. -/
theorem destroy_is_last (a : Agent) (life : List Episode) {said more : List RunStep}
    (h : operations (a.deeds life) = said ++ .destroy :: more) : more = [] := by
  induction life generalizing a said with
  | nil => simp [deeds] at h
  | cons e rest ih =>
    simp only [deeds, operations_append] at h
    cases a.course_run e with
    | silent quiet _ =>
      rw [quiet] at h
      exact ih _ h
    | told _ now =>
      rw [now] at h
      cases said with
      | nil =>
        -- destruction is told in this very episode, so the agent is in it from now on
        obtain ⟨destroyed, rest⟩ := List.cons.inj h
        rw [← rest]
        exact (stays_destroyed destroyed _).2
      | cons first others => exact ih _ (List.cons.inj h).2

/-- What occurs only at the end of a list occurs at most once. -/
theorem count_destroy_le_one {steps : List RunStep}
    (last : ∀ said more, steps = said ++ .destroy :: more → more = []) :
    steps.count .destroy ≤ 1 := by
  by_cases told : RunStep.destroy ∈ steps
  · obtain ⟨said, more, split, before⟩ := List.eq_append_cons_of_mem told
    rw [split, last said more split, List.count_append, List.count_eq_zero_of_not_mem before]
    simp
  · rw [List.count_eq_zero_of_not_mem told]
    omega

/-- **Destruction is final.** Whatever befalls an agent: once its run-step is destruction it remains
so; its session is told to destroy itself at most once in its whole life, and nothing after that. -/
theorem destruction_is_final (a : Agent) (life : List Episode) :
    (∀ earlier later, life = earlier ++ later →
      (a.after earlier).step = .destroy → (a.after life).step = .destroy) ∧
    (operations (a.deeds life)).count .destroy ≤ 1 ∧
    ∀ said more, operations (a.deeds life) = said ++ .destroy :: more → more = [] := by
  refine ⟨?_, ?_, ?_⟩
  · rintro earlier later rfl destroyed
    rw [after_append]
    exact (stays_destroyed destroyed later).1
  · exact count_destroy_le_one fun said more => a.destroy_is_last life
  · intro said more
    exact a.destroy_is_last life

end Agent

/-- A sink is given a session, starts, and is destroyed; the session then claims a fault, and that
it has started after all, and the sink is told twice more to go. -/
def Episode.stubborn : List Episode :=
  let told (kind : EventKind) : Episode :=
    .act (.handle { kind, sender := .context, target := .context, payload := .agent { agent := 2 } })
      (.ok ())
  [.attach { cls := Loopback.sessionClass, number := none }, told (.command .start),
    told .destroyAgent, .act (.hearFault .general) (.ok ()), .act (.hear .started) (.ok ()),
    told .contextDestroyAgent, told (.command .appendSurface), told .destroyAgent]

example : operations ((Agent.newSink 2).deeds Episode.stubborn) = [.start, .destroy] := rfl

end CastHub
