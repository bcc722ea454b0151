import CastHub.Agent
/-!
# What the fate of an agent depends on

Most of what an agent does is between it and its session. Who it is and how far its teardown has
come (`Agent.member`) changes in one way only: an agent that is told to destroy itself is doomed.

* `Agent.member_hear` : news from the session change nothing of it;
* `Agent.member_handle` : an event changes nothing of it either, unless it asks for destruction.
-/

namespace CastHub

/-- What is known of an agent from the outside: who it is, and how far its teardown has come. -/
structure Member where
  id : Id
  role : Role
  sink : Id
  channel : Id
  /-- Whether teardown has begun. -/
  destroying : Bool := false
  /-- Whether the run-step is destruction. -/
  doomed : Bool := false
deriving DecidableEq

namespace Member

/-- The member that has been told to destroy itself. Only the first time matters. -/
def doom (m : Member) : Member :=
  if m.doomed then m else { m with destroying := true, doomed := true }

/-- The member as it was when it was new. -/
def who (m : Member) : Member := { m with destroying := false, doomed := false }

/-- Whether the member is a source of a given sink. -/
def isSourceOf (sink : Id) (m : Member) : Bool := m.role = .source && m.sink = sink

theorem doomed_doom (m : Member) : m.doom.doomed = true := by
  unfold doom
  split
  · assumption
  · rfl

theorem doom_of_doomed {m : Member} (h : m.doomed = true) : m.doom = m := if_pos h

theorem doom_doom (m : Member) : m.doom.doom = m.doom := doom_of_doomed (doomed_doom m)

@[simp] theorem who_doom (m : Member) : m.doom.who = m.who := by
  unfold doom
  split <;> rfl

theorem role_doom (m : Member) : m.doom.role = m.role := by
  unfold doom
  split <;> rfl

theorem destroying_doom {m : Member} (h : m.destroying = true) : m.doom.destroying = true := by
  unfold doom
  split
  · exact h
  · rfl

@[simp] theorem isSourceOf_who (sink : Id) (m : Member) :
    m.who.isSourceOf sink = m.isSourceOf sink := rfl

@[simp] theorem role_who (m : Member) : m.who.role = m.role := rfl

@[simp] theorem id_who (m : Member) : m.who.id = m.id := rfl

@[simp] theorem sink_who (m : Member) : m.who.sink = m.sink := rfl

@[simp] theorem channel_who (m : Member) : m.who.channel = m.channel := rfl

theorem isSourceOf_iff {sink : Id} {m : Member} :
    m.isSourceOf sink = true ↔ m.role = .source ∧ m.sink = sink := by
  simp [isSourceOf]

end Member

/-- Only the two kinds of events that begin a teardown ask an agent for destruction. -/
theorem EventKind.step_eq_destroy_iff {kind : EventKind} :
    kind.step = .destroy ↔ kind = .contextDestroyAgent ∨ kind = .destroyAgent := by
  constructor
  · intro asks
    cases kind with
    | command c => exact absurd asks (Command.step_ne c).2
    | destroyAgent => exact .inr rfl
    | contextDestroyAgent => exact .inl rfl
    | _ => cases asks
  · rintro (rfl | rfl) <;> rfl

namespace Agent

/-- The agent as it is known from the outside. -/
def member (a : Agent) : Member :=
  { id := a.id, role := a.role, sink := a.sink, channel := a.channel,
    destroying := a.destroying, doomed := a.step = .destroy }

/-! ## News from the session -/

theorem member_hear (a : Agent) (news : SessionNews) : (a.hear news).1.member = a.member := by
  cases news with
  | error fault =>
    show (if fault.isFatal then a.leave .error else a).member = a.member
    split <;> rfl
  | _ => rfl

theorem member_hearAll (a : Agent) (news : List SessionNews) :
    (a.hearAll news).1.member = a.member := by
  induction news generalizing a with
  | nil => rfl
  | cons n rest ih =>
    show ((a.hear n).1.hearAll rest).1.member = a.member
    rw [ih, member_hear]

/-! ## Driving the session -/

theorem member_drive (a : Agent) (c : SessionCall) : (a.drive c).agent.member = a.member := by
  unfold drive
  split
  · rfl
  · unfold callSession
    split
    · exact member_hearAll _ _
    · rfl

/-- Whatever the step is, the agent that enters it drives its session and remains who it was. -/
theorem member_handleStep_of_entered {a b : Agent} {e : Event} {step : RunStep}
    (h : a.enter step = .entered b) :
    (a.handleStep e step).agent.member
      = (if step = .destroy then { b with destroying := true } else b).member := by
  unfold handleStep
  rw [h]
  show (if _ then _ else _ : AgentTurn).agent.member = _
  split
  · show (((_ : Agent).drive _).agent.drive _).agent.member = _
    rw [member_drive, member_drive]
  · exact member_drive _ _

/-- An agent that is asked for a run-step other than destruction remains as it was. -/
theorem member_handleStep_of_ne {a : Agent} {e : Event} {step : RunStep} (h : step ≠ .destroy) :
    (a.handleStep e step).agent.member = a.member := by
  cases entry : a.enter step with
  | refused fault => simp only [handleStep, entry]
  | absorbed => simp only [handleStep, entry]
  | entered b =>
    rw [member_handleStep_of_entered entry, if_neg h]
    obtain ⟨alive, rfl⟩ := eq_of_entered entry
    simp [member, h, alive]

/-- An agent that is asked for destruction is doomed. -/
theorem member_handleStep_destroy (a : Agent) (e : Event) :
    (a.handleStep e .destroy).agent.member = a.member.doom := by
  by_cases doomed : a.step = .destroy
  · have kept : a.member.doom = a.member := if_pos (by simp [member, doomed])
    rw [kept]
    unfold handleStep enter
    rw [if_pos doomed]
    -- whether it is refused or absorbed, the agent stays as it is
    split <;> rename_i entry <;> split at entry <;> cases entry <;> rfl
  · rw [member_handleStep_of_entered (enter_destroy doomed), if_pos rfl]
    unfold Member.doom
    rw [if_neg (by simp [member, doomed])]
    rfl

/-! ## Events -/

/-- **An event changes who an agent is only if it asks for destruction**, and then the agent is
doomed. -/
theorem member_handle (a : Agent) (e : Event) :
    (a.handle e).agent.member
      = if e.kind.step = .destroy then a.member.doom else a.member := by
  unfold handle
  split
  · rename_i refused
    have other : e.kind.step ≠ .destroy := by
      intro asks
      apply refused.2
      rcases EventKind.step_eq_destroy_iff.1 asks with kind | kind <;> rw [kind] <;> rfl
    rw [if_neg other]
  · split
    · rename_i change kind
      rw [if_neg (by rw [kind]; exact RunStep.noConfusion), member_drive]
    · rename_i kind
      rw [if_neg (by rw [kind]; decide)]
      exact member_hear a (.error (faultOf e))
    · split
      · rename_i idle
        rw [if_neg (by rw [idle]; decide)]
      · split
        · rename_i asks
          rw [asks, member_handleStep_destroy]
        · rename_i other
          rw [member_handleStep_of_ne other]

/-- Events that ask for destruction doom. -/
theorem member_handle_of_destroy {e : Event} (h : e.kind.step = .destroy) (a : Agent) :
    (a.handle e).agent.member = a.member.doom := by
  rw [member_handle, if_pos h]

/-- Other events leave an agent as it was. -/
theorem member_handle_of_ne {e : Event} (h : e.kind.step ≠ .destroy) (a : Agent) :
    (a.handle e).agent.member = a.member := by
  rw [member_handle, if_neg h]

end Agent

end CastHub
