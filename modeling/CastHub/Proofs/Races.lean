import CastHub.Agent
import Mathlib.Data.List.Nodup
/-!
# Races between run-steps

Several run-steps are asked for while nothing ends the one that the agent is in. Which of them are
entered depends on the order in which they come, but how heavy the last one is does not
(`Agent.races_are_settled_by_weight`): it is as heavy as the heaviest of those that were asked for
and, if it counts, of the one that the agent was in. That one counts while it is running, and
destruction always counts (`Agent.IsEngaged`).

One rule says it all (`Agent.entered_iff`): an agent whose run-step counts enters exactly the
heavier ones, and any other agent enters whatever it is asked for.
-/

namespace CastHub

namespace Agent

/-- The agent after it has been asked for a run-step. Unless it enters it, it stays as it is. -/
def ask (a : Agent) (step : RunStep) : Agent :=
  match a.enter step with
  | .entered b => b
  | .absorbed | .refused _ => a

/-- The agent after it has been asked for several run-steps, one after another. -/
def race (a : Agent) (steps : List RunStep) : Agent := steps.foldl ask a

/-- The run-steps that are entered, of those that are asked for. -/
def entries (a : Agent) : List RunStep → List RunStep
  | [] => []
  | step :: rest =>
    match a.enter step with
    | .entered b => step :: b.entries rest
    | .absorbed | .refused _ => a.entries rest

/-- Whether the agent's own run-step counts in a race: it is running, or it is destruction. -/
def IsEngaged (a : Agent) : Prop := a.status = .running ∨ a.step = .destroy

instance (a : Agent) : Decidable a.IsEngaged :=
  inferInstanceAs (Decidable (a.status = .running ∨ a.step = .destroy))

/-- The run-step that the agent brings into a race, if it counts. -/
def contenders (a : Agent) : List RunStep := if a.IsEngaged then [a.step] else []

theorem contenders_of_engaged {a : Agent} (engaged : a.IsEngaged) : a.contenders = [a.step] :=
  if_pos engaged

theorem contenders_of_free {a : Agent} (free : ¬ a.IsEngaged) : a.contenders = [] := if_neg free

theorem contenders_append_ne_nil (a : Agent) {steps : List RunStep} (asked : steps ≠ []) :
    a.contenders ++ steps ≠ [] := fun none => asked (List.append_eq_nil_iff.1 none).2

/-! ## One request -/

/-- **Which run-steps an agent enters**: heavier ones, if its own counts, and any otherwise. -/
theorem entered_iff {a b : Agent} {step : RunStep} :
    a.enter step = .entered b ↔
      b = { a with step, status := .running } ∧ (a.IsEngaged → a.step.weight < step.weight) := by
  by_cases doomed : a.step = .destroy
  · -- nothing is heavier than destruction
    have full := step.weight_le_destroy
    constructor
    · intro entry
      exact absurd doomed (eq_of_entered entry).1
    · rintro ⟨_, heavier⟩
      have above := heavier (.inr doomed)
      rw [doomed] at above
      omega
  · unfold enter
    rw [if_neg doomed]
    by_cases held : step ≠ .destroy ∧ a.status = .running ∧ step.weight ≤ a.step.weight
    · rw [if_pos held]
      constructor
      · intro entered
        cases entered
      · rintro ⟨_, heavier⟩
        exact absurd (heavier (.inl held.2.1)) (Nat.not_lt.2 held.2.2)
    · rw [if_neg held, Admission.entered.injEq]
      refine ⟨fun same => ⟨same.symm, fun engaged => ?_⟩, fun entered => entered.1.symm⟩
      have running : a.status = .running := engaged.resolve_right doomed
      by_cases last : step = .destroy
      · -- destruction is heavier than whatever else the agent is in
        have below := a.step.weight_le_destroy
        have apart : a.step.weight ≠ RunStep.destroy.weight :=
          fun same => doomed (RunStep.weight_eq_destroy_iff.1 same)
        rw [last]
        omega
      · exact Nat.lt_of_not_le fun light => held ⟨last, running, light⟩

/-- What asking for a run-step comes to: it is entered, or the agent's own is at least as heavy. -/
theorem enter_cases (a : Agent) (step : RunStep) :
    (a.enter step = .entered (a.ask step) ∧ a.ask step = { a with step, status := .running } ∧
        (a.IsEngaged → a.step.weight < step.weight)) ∨
      ((∀ b, a.enter step ≠ .entered b) ∧ a.ask step = a ∧ a.IsEngaged ∧
        step.weight ≤ a.step.weight) := by
  unfold ask
  by_cases heavier : a.IsEngaged → a.step.weight < step.weight
  · have entry := entered_iff.2 ⟨rfl, heavier⟩
    rw [entry]
    exact .inl ⟨rfl, rfl, heavier⟩
  · obtain ⟨engaged, light⟩ := Classical.not_imp.1 heavier
    have never : ∀ b, a.enter step ≠ .entered b := fun b entry => heavier (entered_iff.1 entry).2
    refine .inr ⟨never, ?_, engaged, Nat.le_of_not_lt light⟩
    cases entry : a.enter step with
    | entered b => exact absurd entry (never b)
    | absorbed => rfl
    | refused fault => rfl

/-- Whatever an agent was asked for, its run-step counts from then on. -/
theorem isEngaged_ask (a : Agent) (step : RunStep) : (a.ask step).IsEngaged := by
  rcases a.enter_cases step with ⟨_, now, _⟩ | ⟨_, now, engaged, _⟩
  · rw [now]
    exact .inl rfl
  · rw [now]
    exact engaged

/-- The agent's run-step is then the heavier of the one that was asked for and its own. -/
theorem weight_ask (a : Agent) (step : RunStep) :
    ((a.contenders ++ [step]).map RunStep.weight).max? = some (a.ask step).step.weight := by
  rcases a.enter_cases step with ⟨_, now, heavier⟩ | ⟨_, now, engaged, light⟩
  · rw [now]
    by_cases engaged : a.IsEngaged
    · have above := heavier engaged
      rw [contenders_of_engaged engaged]
      show some (max a.step.weight step.weight) = some step.weight
      rw [Nat.max_eq_right (Nat.le_of_lt above)]
    · rw [contenders_of_free engaged]
      rfl
  · rw [now, contenders_of_engaged engaged]
    show some (max a.step.weight step.weight) = some a.step.weight
    rw [Nat.max_eq_left light]

/-! ## Races -/

/-- **The heaviest contender wins.** -/
theorem weight_race {a : Agent} {steps : List RunStep} (any : a.contenders ++ steps ≠ []) :
    ((a.contenders ++ steps).map RunStep.weight).max? = some (a.race steps).step.weight := by
  induction steps generalizing a with
  | nil =>
    by_cases engaged : a.IsEngaged
    · rw [contenders_of_engaged engaged]
      rfl
    · rw [contenders_of_free engaged] at any
      exact absurd rfl any
  | cons step rest ih =>
    -- from the first request on, the race goes on with the heavier of two
    have first := a.weight_ask step
    have later := contenders_of_engaged (a.isEngaged_ask step)
    have won := @ih (a.ask step) (later ▸ List.cons_ne_nil _ _)
    rw [later] at won
    show _ = some ((a.ask step).race rest).step.weight
    rw [← won]
    by_cases engaged : a.IsEngaged
    · rw [contenders_of_engaged engaged] at first ⊢
      have heavier : max a.step.weight step.weight = (a.ask step).step.weight :=
        Option.some.inj first
      show some ((rest.map RunStep.weight).foldl max (max a.step.weight step.weight)) = _
      rw [heavier]
      rfl
    · rw [contenders_of_free engaged] at first ⊢
      have heavier : step.weight = (a.ask step).step.weight := Option.some.inj first
      show some ((rest.map RunStep.weight).foldl max step.weight) = _
      rw [heavier]
      rfl

/-- The order of the requests does not matter for how heavy the last run-step is. -/
theorem weight_race_of_perm {a : Agent} {steps order : List RunStep} (asked : steps ≠ [])
    (same : order.Perm steps) : (a.race order).step.weight = (a.race steps).step.weight := by
  have reasked : order ≠ [] := fun none => asked (List.nil_perm.1 (none ▸ same))
  have first := List.max?_eq_some_iff.1 (weight_race (a.contenders_append_ne_nil asked))
  have second := List.max?_eq_some_iff.1 (weight_race (a.contenders_append_ne_nil reasked))
  have members : ∀ weight, weight ∈ (a.contenders ++ order).map RunStep.weight ↔
      weight ∈ (a.contenders ++ steps).map RunStep.weight := fun weight =>
    ((same.append_left a.contenders).map RunStep.weight).mem_iff
  exact Nat.le_antisymm (first.2 _ ((members _).1 second.1)) (second.2 _ ((members _).2 first.1))

theorem entries_of_entered {a b : Agent} {step : RunStep} (entry : a.enter step = .entered b)
    (rest : List RunStep) : a.entries (step :: rest) = step :: b.entries rest := by
  rw [entries, entry]

theorem entries_of_never {a : Agent} {step : RunStep} (never : ∀ b, a.enter step ≠ .entered b)
    (rest : List RunStep) : a.entries (step :: rest) = a.entries rest := by
  cases entry : a.enter step with
  | entered b => exact absurd entry (never b)
  | absorbed => rw [entries, entry]
  | refused fault => rw [entries, entry]

/-- What is entered gets heavier and heavier, and is heavier than the agent's own run-step if that
one counts. -/
theorem rising_entries (a : Agent) (steps : List RunStep) :
    (a.contenders ++ a.entries steps).Pairwise (·.weight < ·.weight) := by
  induction steps generalizing a with
  | nil =>
    rw [entries, List.append_nil]
    unfold contenders
    split
    · exact List.pairwise_singleton _ _
    · exact List.Pairwise.nil
  | cons step rest ih =>
    have later := ih (a.ask step)
    rw [contenders_of_engaged (a.isEngaged_ask step)] at later
    rcases a.enter_cases step with ⟨entry, now, heavier⟩ | ⟨never, now, engaged, _⟩
    · have isStep : (a.ask step).step = step := by rw [now]
      rw [isStep] at later
      rw [entries_of_entered entry]
      by_cases engaged : a.IsEngaged
      · rw [contenders_of_engaged engaged]
        refine List.pairwise_cons.2 ⟨fun next mem => ?_, later⟩
        rcases List.mem_cons.1 mem with rfl | after
        · exact heavier engaged
        · exact Nat.lt_trans (heavier engaged) ((List.pairwise_cons.1 later).1 next after)
      · rw [contenders_of_free engaged]
        exact later
    · rw [now] at later
      rw [entries_of_never never, contenders_of_engaged engaged]
      exact later

/-- No two of the entered run-steps weigh the same. -/
theorem count_entries_le_one (a : Agent) (steps : List RunStep) (weight : Nat) :
    ((a.entries steps).map RunStep.weight).count weight ≤ 1 := by
  have rising := (List.pairwise_append.1 (a.rising_entries steps)).2.1
  have apart : ((a.entries steps).map RunStep.weight).Nodup :=
    List.pairwise_map.2 (rising.imp fun lighter => Nat.ne_of_lt lighter)
  exact List.nodup_iff_count_le_one.1 apart weight

/-- **Races are settled by weight.** Whatever an agent is up to, and whatever run-steps it is asked
for, at least one, while nothing else happens to it: the one that it is in at the end is as heavy as
the heaviest of them and, if that counts, of its own; so the order in which they come makes no
difference to that. Whatever it enters while a run-step is running is heavier than that one, and
it enters no two that weigh the same. -/
theorem races_are_settled_by_weight (a : Agent) {steps : List RunStep} (asked : steps ≠ []) :
    ((a.contenders ++ steps).map RunStep.weight).max? = some (a.race steps).step.weight ∧
    (∀ order, order.Perm steps → (a.race order).step.weight = (a.race steps).step.weight) ∧
    (∀ before step rest b, steps = before ++ step :: rest → (a.race before).status = .running →
      (a.race before).enter step = .entered b → (a.race before).step.weight < step.weight) ∧
    ∀ weight, ((a.entries steps).map RunStep.weight).count weight ≤ 1 := by
  refine ⟨weight_race (a.contenders_append_ne_nil asked),
    fun order same => weight_race_of_perm asked same, ?_, a.count_entries_le_one steps⟩
  rintro before step rest b - running entry
  exact (entered_iff.1 entry).2 (.inl running)

/-- Two steps of one weight race with the start of a sink that is playing, in two orders. One of
them is entered in either case, but not the same one. -/
theorem races_are_settled_by_weight_when_playing :
    let playing : Agent := { Agent.newSink 2 with step := .play, status := .done }
    (playing.race [.pause, .stop, .start]).step.weight = 2 ∧
    (playing.race [.stop, .start, .pause]).step.weight = 2 ∧
      playing.entries [.pause, .stop, .start] = [.pause, .start] ∧
      playing.entries [.stop, .start, .pause] = [.stop, .start] := by
  obtain ⟨heaviest, alike, _, _⟩ := races_are_settled_by_weight
    { Agent.newSink 2 with step := .play, status := .done }
    (List.cons_ne_nil .pause [.stop, .start])
  have two := Option.some.inj heaviest.symm
  refine ⟨two, ?_, rfl, rfl⟩
  exact (alike _ (by decide)).trans two

end Agent

end CastHub
