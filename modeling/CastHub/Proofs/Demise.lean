import CastHub.Proofs.Destruction
import Mathlib.Data.List.Induction
/-!
# What ends a destruction

An agent takes a destruction that is done for a proof that it is gone: it refuses to be destroyed
again. But it asks no piece of news which run-step it belongs to. News that end a step end the one
that the agent is in, so its destruction need not have ended with its session, and an interruption
will do (`Agent.a_destruction_is_cut_short`).

What can be said is on whose word a destruction is done. The agent's status is what the news that
it has heard since it entered destruction make of it (`Agent.status_after`), and of these only the
last that ends a step counts (`statusAfter_eq`). What was heard before does not count at all
(`Agent.lastWords`). And each time that destruction is reported to be completed, a completion has
been heard (`Agent.reported_after`).
-/

namespace CastHub

/-! ## News that end a step -/

namespace SessionNews

/-- Whether a session says that it has done what it was told. It may be something that it was told
long ago. -/
def isCompletion : SessionNews → Bool
  | .started | .stopped | .paused | .resumed | .stepDone _ => true
  | _ => false

/-- How news end the run-step that the agent is in, if they do. -/
def ending? : SessionNews → Option StepStatus
  | .started | .stopped | .paused | .resumed | .stepDone _ | .destroyed | .interrupted => some .done
  | .error fault => if fault.isFatal then some .error else none
  | .prosumer _ | .privateNews .. => none

theorem ending?_eq_done {news : SessionNews} :
    news.ending? = some .done ↔ news = .destroyed ∨ news = .interrupted ∨ news.isCompletion := by
  cases news with
  | error fault =>
    have failed : (if fault.isFatal then some StepStatus.error else none) ≠ some .done := by
      split <;> nofun
    simp [isCompletion, ending?, failed]
  | _ => simp [isCompletion, ending?]

end SessionNews

open SessionNews

/-- The status of a run-step after some news have been heard in it. -/
def statusAfter (status : StepStatus) (words : List SessionNews) : StepStatus :=
  words.foldl (fun status news => news.ending?.getD status) status

theorem statusAfter_append (status : StepStatus) (words more : List SessionNews) :
    statusAfter status (words ++ more) = statusAfter (statusAfter status words) more :=
  List.foldl_append

/-- The last of the news that ends a run-step. -/
def finalWord? (words : List SessionNews) : Option SessionNews :=
  (words.filter (·.ending?.isSome)).getLast?

/-- Only the last word counts. -/
theorem statusAfter_eq (status : StepStatus) (words : List SessionNews) :
    statusAfter status words = ((finalWord? words).bind ending?).getD status := by
  induction words using List.reverseRecOn with
  | nil => rfl
  | append_singleton words news ih =>
    rw [statusAfter_append, ih]
    cases ends : news.ending? with
    | none => simp [statusAfter, finalWord?, List.filter_append, ends]
    | some ending => simp [statusAfter, finalWord?, List.filter_append, ends]

/-- A run-step is done if the last word that ends it says so. -/
theorem statusAfter_eq_done {words : List SessionNews} :
    statusAfter .running words = .done ↔
      ∃ word, finalWord? words = some word ∧
        (word = .destroyed ∨ word = .interrupted ∨ word.isCompletion) := by
  rw [statusAfter_eq]
  cases said : finalWord? words with
  | none => simp
  | some word =>
    -- the final word ends a step, so it gives a status
    have ends : word.ending?.isSome :=
      (List.mem_filter.1 (List.mem_of_getLast? said)).2
    obtain ⟨ending, gives⟩ := Option.isSome_iff_exists.1 ends
    simp only [Option.bind_some, gives, Option.getD_some, Option.some.injEq, exists_eq_left',
      ← ending?_eq_done]

/-! ## Lives -/

/-- What the session says when it is called. -/
def AgentAct.news : AgentAct → List SessionNews
  | .call s c => (s.call c).1.news
  | .report _ => []

/-- Whether an act reports that destruction is completed. -/
def AgentAct.reportsDemise (act : AgentAct) : Bool :=
  act.report?.any (·.step = some .destroy)

/-- Whether nobody meddles with the agent: its run-step is not ended by hand, and no message is sent
in its name. -/
def Episode.isNatural : Episode → Bool
  | .act (.leave _) _ | .act (.announce _) _ => false
  | _ => true

namespace Agent

/-- The news that an agent hears in an episode. A fault is one of the session's, whoever tells the
agent of it. -/
def hears (a : Agent) : Episode → List SessionNews
  | .act (.handle e) _ =>
    if e.kind = .prosumerError then [.error (faultOf e)]
    else (a.handle e).acts.flatMap AgentAct.news
  | .act (.hear news) _ => [news]
  | .act (.hearFault fault) _ => [.error fault]
  | _ => []

/-- The news that an agent hears from the moment when it enters destruction. It enters a run-step
before it tells its session to, so this is all that it hears in the episodes at whose end it is in
destruction. -/
def lastWords (a : Agent) : List Episode → List SessionNews
  | [] => []
  | e :: rest =>
    (if (e.run a).agent.step = .destroy then a.hears e else []) ++ (e.run a).agent.lastWords rest

/-- The status of an agent in destruction. One that is not in it yet will be running when it enters
it. -/
def onset (a : Agent) : StepStatus := if a.step = .destroy then a.status else .running

/-! ## Hearing -/

/-- What a turn does to an agent that remains in its run-step and hears some news. -/
structure Heeds (a : Agent) (t : AgentTurn) (words : List SessionNews) : Prop where
  step : t.agent.step = a.step
  status : t.agent.status = statusAfter a.status words
  reports : t.acts.countP AgentAct.reportsDemise
    = if a.step = .destroy then words.countP isCompletion else 0

/-- A turn in which nothing is heard and nothing is done. -/
theorem Heeds.of_same {a : Agent} {t : AgentTurn} (step : t.agent.step = a.step)
    (status : t.agent.status = a.status) (idle : t.acts = []) : a.Heeds t [] where
  step := step
  status := status
  reports := by simp [idle]

theorem Heeds.trans {a : Agent} {t u : AgentTurn} {words more : List SessionNews}
    (h : a.Heeds t words) (h' : t.agent.Heeds u more) :
    a.Heeds { u with acts := t.acts ++ u.acts } (words ++ more) where
  step := h'.step.trans h.step
  status := by rw [statusAfter_append, ← h.status, h'.status]
  reports := by
    rw [List.countP_append, h.reports, h'.reports, h.step, List.countP_append]
    split <;> rfl

theorem countP_reports (msg : StatusMsg) :
    ((reports msg).map AgentAct.report).countP AgentAct.reportsDemise
      = if mayNotify msg.target ∧ msg.step = some .destroy then 1 else 0 := by
  unfold reports
  cases mayNotify msg.target <;>
    simp [AgentAct.reportsDemise, AgentAct.report?, List.countP_cons]

/-- The turn in which an agent hears one piece of news. -/
theorem heeds_hear (a : Agent) (news : SessionNews) :
    a.Heeds { agent := (a.hear news).1, acts := (a.hear news).2.map .report } [news] where
  step := a.step_hear news
  status := by
    cases news with
    | error fault =>
      show (if fault.isFatal then a.leave .error else a).status = _
      cases fatal : fault.isFatal <;> simp [statusAfter, ending?, fatal, leave]
    | _ => rfl
  reports := by
    cases news with
    | started | stopped | paused | resumed | stepDone =>
      show ((reports { a.statusMsg .interaction .noticeStepDone with
        step := some a.step }).map AgentAct.report).countP _ = _
      rw [countP_reports]
      simp [mayNotify, statusMsg, isCompletion]
    | interrupted => simp [hear, isCompletion]
    | destroyed =>
      have nameless : a.farewell.step = none := by
        unfold farewell
        cases a.role <;> rfl
      show ((reports a.farewell).map AgentAct.report).countP _ = _
      rw [countP_reports]
      simp [nameless, isCompletion]
    | prosumer | error | privateNews =>
      unfold hear
      dsimp only [hearFault]
      rw [countP_reports]
      simp [statusMsg, isCompletion]

theorem heeds_hearAll (a : Agent) (news : List SessionNews) :
    a.Heeds { agent := (a.hearAll news).1, acts := (a.hearAll news).2.map .report } news := by
  induction news generalizing a with
  | nil => exact .of_same rfl rfl rfl
  | cons n rest ih =>
    have both := (a.heeds_hear n).trans (ih (a.hear n).1)
    rw [← List.map_append] at both
    exact both

/-- What is heard in a turn is what the session says when it is called. -/
theorem heeds_drive (a : Agent) (c : SessionCall) :
    a.Heeds (a.drive c) ((a.drive c).acts.flatMap AgentAct.news) := by
  unfold drive
  split
  · exact .of_same rfl rfl rfl
  · rename_i s _
    unfold callSession
    split
    · have said (msgs : List StatusMsg) :
          (AgentAct.call s c :: msgs.map .report).flatMap AgentAct.news = (s.call c).1.news := by
        simp [AgentAct.news, List.flatMap_map]
      have heard := heeds_hearAll { a with session := some (s.call c).2 } (s.call c).1.news
      show a.Heeds _ ((AgentAct.call s c :: List.map _ _).flatMap AgentAct.news)
      rw [said]
      -- the call itself is no report
      exact ⟨heard.step, heard.status, heard.reports⟩
    · exact .of_same rfl rfl rfl

/-! ## One episode -/

/-- What an episode does to an agent that hears some news in it: it remains in its run-step, or it
enters one first. Destruction is not left. -/
inductive Tells (a : Agent) (t : AgentTurn) (words : List SessionNews) : Prop where
  | stays (heeds : a.Heeds t words)
  | enters (b : Agent) (alive : a.step ≠ .destroy) (running : b.status = .running)
    (heeds : b.Heeds t words)

theorem Tells.status {a : Agent} {t : AgentTurn} {words : List SessionNews} (h : a.Tells t words)
    (dies : t.agent.step = .destroy) : t.agent.status = statusAfter a.onset words := by
  unfold onset
  cases h with
  | stays heeds => rw [heeds.status, if_pos (heeds.step.symm.trans dies)]
  | enters b alive running heeds => rw [heeds.status, if_neg alive, running]

theorem Tells.reports {a : Agent} {t : AgentTurn} {words : List SessionNews} (h : a.Tells t words) :
    t.acts.countP AgentAct.reportsDemise
      = if t.agent.step = .destroy then words.countP isCompletion else 0 := by
  cases h with
  | stays heeds => rw [heeds.reports, heeds.step]
  | enters b alive running heeds => rw [heeds.reports, heeds.step]

theorem tells_handleStep (a : Agent) (e : Event) (step : RunStep) :
    a.Tells (a.handleStep e step) ((a.handleStep e step).acts.flatMap AgentAct.news) := by
  unfold handleStep
  split
  · exact .stays (.of_same rfl rfl rfl)
  · exact .stays (.of_same rfl rfl rfl)
  · rename_i b entry
    obtain ⟨alive, entered⟩ := eq_of_entered entry
    have running : b.status = .running := by rw [entered]
    dsimp only
    -- marking the agent as one that goes does not touch its status
    generalize marked : (if step = .destroy then { b with destroying := true } else b) = d
    have running : d.status = .running := by
      rw [← marked]
      split <;> exact running
    split
    · have driven := (d.heeds_drive (.privateEvent e)).trans (heeds_drive _ (.operate step))
      rw [← List.flatMap_append] at driven
      exact .enters d alive running driven
    · exact .enters d alive running (d.heeds_drive _)

theorem tells_handle (a : Agent) (e : Event) (listener : Except Fault Unit) :
    a.Tells (a.handle e) (a.hears (.act (.handle e) listener)) := by
  unfold hears
  dsimp only
  by_cases failure : e.kind = .prosumerError
  · -- telling of a failure belongs to teardown, so it is never refused
    have taken : ¬ (a.destroying ∧ ¬ e.kind.isDestroyRelated) := by
      simp [failure, EventKind.isDestroyRelated]
    rw [if_pos failure]
    unfold handle
    rw [if_neg taken, failure]
    exact .stays (a.heeds_hear (.error (faultOf e)))
  · rw [if_neg failure]
    unfold handle
    split
    · exact .stays (.of_same rfl rfl rfl)
    · split
      · exact .stays (a.heeds_drive _)
      · contradiction
      · split
        · exact .stays (.of_same rfl rfl rfl)
        · exact a.tells_handleStep e _

/-- **What an episode does**, unless somebody meddles with the agent. -/
theorem tells_run (a : Agent) {e : Episode} (natural : e.isNatural) :
    a.Tells (e.run a) (a.hears e) := by
  cases e with
  | attach s =>
    simp only [Episode.run, Agent.attach]
    cases a.session <;> exact .stays (.of_same rfl rfl rfl)
  | act action listener =>
    cases action with
    | enter step =>
      cases entry : a.enter step with
      | refused fault =>
        simp only [Episode.run, AgentAction.run, entry]
        exact .stays (.of_same rfl rfl rfl)
      | absorbed =>
        simp only [Episode.run, AgentAction.run, entry]
        exact .stays (.of_same rfl rfl rfl)
      | entered b =>
        obtain ⟨alive, entered⟩ := eq_of_entered entry
        have running : b.status = .running := by rw [entered]
        simp only [Episode.run, AgentAction.run, entry]
        exact .enters b alive running (.of_same rfl rfl rfl)
    | handle e => exact a.tells_handle e listener
    | hear news => exact .stays (a.heeds_hear news)
    | hearFault fault => exact .stays (a.heeds_hear (.error fault))
    | setDestroying | setChannel => exact .stays (.of_same rfl rfl rfl)
    | leave | announce => cases natural

/-! ## A whole life -/

/-- **On whose word the destruction of an agent stands.** -/
theorem status_after {a : Agent} {life : List Episode} (natural : ∀ e ∈ life, e.isNatural)
    (dies : (a.after life).step = .destroy) :
    (a.after life).status = statusAfter a.onset (a.lastWords life) := by
  induction life generalizing a with
  | nil => exact (if_pos dies).symm
  | cons e rest ih =>
    have turn := a.tells_run (natural e (.head rest))
    have later := ih (fun e' mem => natural e' (.tail e mem)) dies
    show ((e.run a).agent.after rest).status = statusAfter a.onset ((if _ then _ else _) ++ _)
    rw [later, statusAfter_append]
    congr 1
    by_cases here : (e.run a).agent.step = .destroy
    · rw [if_pos here, onset, if_pos here, turn.status here]
    · -- the agent was not in destruction before either, since it would not have left it
      have before : a.step ≠ .destroy := fun there => here ((a.course_run e).stays there).1
      rw [if_neg here, onset, if_neg here, onset, if_neg before]
      rfl

/-- Destruction is reported to be completed once for every completion that is heard in it. -/
theorem reported_after {a : Agent} {life : List Episode} (natural : ∀ e ∈ life, e.isNatural) :
    (a.deeds life).countP AgentAct.reportsDemise = (a.lastWords life).countP isCompletion := by
  induction life generalizing a with
  | nil => rfl
  | cons e rest ih =>
    have turn := a.tells_run (natural e (.head rest))
    have later := ih (a := (e.run a).agent) fun e' mem => natural e' (.tail e mem)
    show List.countP _ ((e.run a).acts ++ _) = List.countP _ ((if _ then _ else _) ++ _)
    rw [List.countP_append, List.countP_append, turn.reports, later]
    congr 1
    split <;> rfl

theorem enter_destroy_eq_refused {a : Agent} :
    a.enter .destroy = .refused .general ↔ a.step = .destroy ∧ a.status = .done := by
  unfold enter
  by_cases doomed : a.step = .destroy
  · rw [if_pos doomed]
    by_cases done : a.status = .done <;> simp [doomed, done]
  · simp [doomed]

/-- **A destruction is done on somebody's word.** An agent refuses to be destroyed again exactly
when its destruction is done. Unless somebody meddles with it, it is done only if, of all that the
agent has heard since it entered destruction, the last word that ends a step is that the session is
destroyed or interrupted or has completed something; and each of the first two makes it done.
Nothing but such a completion is reported as the completion of destruction. -/
theorem destruction_is_done_on_word {a : Agent} (alive : a.step ≠ .destroy) {life : List Episode}
    (natural : ∀ e ∈ life, e.isNatural) :
    ((a.after life).enter .destroy = .refused .general ↔
      (a.after life).step = .destroy ∧ (a.after life).status = .done) ∧
    ((a.after life).step = .destroy ∧ (a.after life).status = .done →
      ∃ word, finalWord? (a.lastWords life) = some word ∧
        (word = .destroyed ∨ word = .interrupted ∨ word.isCompletion)) ∧
    (∀ word, (a.after life).step = .destroy → finalWord? (a.lastWords life) = some word →
      word = .destroyed ∨ word = .interrupted → (a.after life).status = .done) ∧
    (a.deeds life).countP AgentAct.reportsDemise ≤ (a.lastWords life).countP isCompletion := by
  have status (dies : (a.after life).step = .destroy) :
      (a.after life).status = statusAfter .running (a.lastWords life) := by
    rw [status_after natural dies, onset, if_neg alive]
  refine ⟨enter_destroy_eq_refused, ?_, ?_, Nat.le_of_eq (reported_after natural)⟩
  · rintro ⟨dies, done⟩
    exact statusAfter_eq_done.1 ((status dies).symm.trans done)
  · intro word dies said leaves
    rw [status dies, statusAfter_eq_done]
    exact ⟨word, said, leaves.imp_right .inl⟩

end Agent

/-- A sink is given a session that says nothing, starts, and is destroyed before it has started;
then the session speaks after all. -/
def Episode.preempted (word : SessionNews) : List Episode :=
  let mute : SessionClass := { isRecorded := false, takesPrivate := false, react := fun _ _ => {} }
  let told (kind : EventKind) : Episode :=
    .act (.handle { kind, sender := .context, target := .context,
                    payload := .agent { agent := 2 } }) (.ok ())
  [.attach { cls := mute, number := none }, told (.command .start), told .destroyAgent,
    .act (.hear word) (.ok ())]

namespace Agent

/-- So it is when the session of such a sink says that it is destroyed. -/
theorem destruction_is_done_on_word_when_destroyed :
    let a := Agent.newSink 2
    let life := Episode.preempted .destroyed
    (a.after life).step = .destroy ∧ (a.after life).status = .done ∧
      ∃ word, finalWord? (a.lastWords life) = some word ∧
        (word = .destroyed ∨ word = .interrupted ∨ word.isCompletion) := by
  intro a life
  have alive : a.step ≠ .destroy := by decide
  have natural : ∀ e ∈ life, e.isNatural := by simp [life, Episode.preempted, Episode.isNatural]
  have done : (a.after life).step = .destroy ∧ (a.after life).status = .done := ⟨rfl, rfl⟩
  exact ⟨done.1, done.2, (destruction_is_done_on_word alive natural).2.1 done⟩

/-- The sink takes itself for gone, although all that its session has said since it entered
destruction is that it was interrupted, or that it has started: what it had been told before. In
the second case the sink even says that it has completed its destruction. -/
theorem a_destruction_is_cut_short :
    (∀ word ∈ [SessionNews.interrupted, .started],
      let a := Agent.newSink 2
      let life := Episode.preempted word
      (∀ e ∈ life, e.isNatural) ∧
      (a.after life).step = .destroy ∧ (a.after life).status = .done ∧
      (a.after life).enter .destroy = .refused .general ∧
      a.lastWords life = [word]) ∧
    ((Agent.newSink 2).deeds (Episode.preempted .started)).countP AgentAct.reportsDemise = 1 := by
  refine ⟨?_, rfl⟩
  intro word spoken
  obtain rfl | rfl : word = .interrupted ∨ word = .started := by simpa using spoken
  · exact ⟨by simp [Episode.preempted, Episode.isNatural], rfl, rfl, rfl, rfl⟩
  · exact ⟨by simp [Episode.preempted, Episode.isNatural], rfl, rfl, rfl, rfl⟩

end Agent

end CastHub
