import CastHub.Proofs.AllOrNothing
import CastHub.Proofs.Reach
/-!
# Events that a context refuses change nothing

Whatever a context is asked for, if it answers with a fault then nothing has been done: every check
comes before the first change, at each depth (`Hub.failed_events_change_nothing`). The context only
remembers who has asked, unless it has been released.

* `Agent.handle_of_fault` : an agent that has a session refuses an event before it enters a step;
* `Context.carryOut_of_fault` : so does a context, whether it tears down, ends a teardown or passes
  the event on.
-/

namespace CastHub

/-! ## Agents -/

namespace Agent

variable {a : Agent} {e : Event}

/-- Only private events can be refused by a session, so an agent that has one can be driven. -/
theorem result_drive_operate (manned : a.session.isSome = true) (step : RunStep) :
    (a.drive (.operate step)).result = .ok () := by
  obtain ⟨s, has⟩ := Option.isSome_iff_exists.1 manned
  unfold drive
  rw [has]
  rfl

theorem result_drive_media (manned : a.session.isSome = true) (change : MediaChange) :
    (a.drive (.media change)).result = .ok () := by
  obtain ⟨s, has⟩ := Option.isSome_iff_exists.1 manned
  unfold drive
  rw [has]
  rfl

/-- A run-step is refused before it is entered. -/
theorem handleStep_of_fault (manned : a.session.isSome = true) {step : RunStep} {fault : Fault}
    (failed : (a.handleStep e step).result = .error fault) :
    (a.handleStep e step).agent = a ∧ (a.handleStep e step).acts = [] := by
  cases entry : a.enter step with
  | refused _ =>
    simp only [handleStep, entry]
    exact ⟨trivial, trivial⟩
  | absorbed =>
    simp only [handleStep, entry] at failed
    cases failed
  | entered b =>
    -- whoever enters a step drives its session last, and that succeeds
    exfalso
    have kept : b.session.isSome = true := isSome_of_persists (persists_of_entered entry) manned
    simp only [handleStep, entry] at failed
    have marked :
        (if step = .destroy then { b with destroying := true } else b).session.isSome = true := by
      split
      · exact kept
      · exact kept
    generalize (if step = .destroy then { b with destroying := true } else b) = d at failed marked
    split at failed
    · have shown := isSome_of_persists (d.talks_drive (.privateEvent e)).persists marked
      cases failed.symm.trans (result_drive_operate shown step)
    · cases failed.symm.trans (result_drive_operate marked step)

/-- **An agent refuses an event before it does anything about it.** -/
theorem handle_of_fault (manned : a.session.isSome = true) {fault : Fault}
    (failed : (a.handle e).result = .error fault) :
    (a.handle e).agent = a ∧ (a.handle e).acts = [] := by
  unfold handle at failed ⊢
  split
  · exact ⟨rfl, rfl⟩
  · rename_i accepted
    rw [if_neg accepted] at failed
    split
    · rename_i change kind
      rw [kind] at failed
      cases failed.symm.trans (result_drive_media manned change)
    · rename_i kind
      rw [kind] at failed
      cases failed
    · rename_i notMedia notError
      split
      · exact ⟨rfl, rfl⟩
      · rename_i steps
        apply handleStep_of_fault manned
        split at failed
        · exact absurd ‹_› (notMedia _)
        · exact absurd ‹_› notError
        · rwa [if_neg steps] at failed

end Agent

/-! ## Contexts -/

namespace Context

variable {c : Context} {e : Event} {fault : Fault}

/-- Beginning a teardown can only fail if no agent is named. -/
theorem destroyAgent_of_fault (sorted : c.agents.Sorted)
    (failed : (c.destroyAgent e).result = .error fault) :
    (c.destroyAgent e).context = c ∧ (c.destroyAgent e).effects = [] := by
  cases named : e.agent? with
  | none =>
    simp only [destroyAgent, named]
    exact ⟨trivial, trivial⟩
  | some id =>
    rw [destroyAgent_eq sorted named, result_tellAll] at failed
    cases failed

/-- Ending one fails only if nobody leaves. -/
theorem agentDestroyed_of_fault (failed : (c.agentDestroyed e).result = .error fault) :
    (c.agentDestroyed e).context = c ∧ (c.agentDestroyed e).effects = [] := by
  cases leaves : c.leaver? e with
  | none =>
    obtain ⟨same, silent, _⟩ := agentDestroyed_of_leaver?_eq_none leaves
    exact ⟨same, silent⟩
  | some a =>
    obtain ⟨id, named, _⟩ := leaver?_eq_some.1 leaves
    obtain ⟨_, _, done⟩ := agentDestroyed_of_leaver? named leaves
    cases failed.symm.trans done

/-- An event is passed on to an agent that refuses it. -/
theorem distribute_of_fault (sorted : c.agents.Sorted)
    (manned : ∀ {id a}, c.agents.get? id = some a → a.session.isSome = true)
    (failed : (c.distribute e).result = .error fault) :
    (c.distribute e).context = c ∧ (c.distribute e).effects = [] := by
  unfold distribute at failed ⊢
  split
  · exact ⟨rfl, rfl⟩
  · rename_i id named
    simp only [named] at failed
    unfold tell at failed ⊢
    split
    · exact ⟨rfl, rfl⟩
    · rename_i a here
      simp only [here] at failed
      obtain ⟨same, silent⟩ := Agent.handle_of_fault (manned here) failed
      simp only [same, silent, Table.put_self sorted here, List.filterMap_nil, and_self]

/-- **A context that answers an event with a fault has done nothing about it.** -/
theorem carryOut_of_fault (sorted : c.agents.Sorted)
    (manned : ∀ {id a}, c.agents.get? id = some a → a.session.isSome = true)
    (failed : (c.carryOut e).result = .error fault) :
    (c.carryOut e).context = c ∧ (c.carryOut e).effects = [] := by
  unfold carryOut at failed ⊢
  split at failed
  · exact destroyAgent_of_fault sorted failed
  · exact destroyAgent_of_fault sorted failed
  · exact agentDestroyed_of_fault failed
  · exact distribute_of_fault sorted manned failed

end Context

/-! ## The hub -/

namespace Hub

variable {hub : Hub} {x : Id} {c : Context} {e : Event} {fault : Fault}

/-- What is left of an event that a context has answered with a fault: the context remembers who has
asked, unless it has been released, and perhaps some numbers have been used up. -/
structure Shrugs (hub : Hub) (x : Id) (c : Context) (e : Event) (fault : Fault) (t : HubTurn) :
    Prop where
  silent : t.effects = []
  context : t.hub.context? x = some (if c.destroying then c else c.noting e)
  others : ∀ y, y ≠ x → t.hub.context? y = hub.context? y
  released : c.destroying = true → fault = .destroying ∧ t.hub = hub
  rest : t.hub =
    { hub with
      ids := t.hub.ids, sessions := t.hub.sessions, contexts := t.hub.contexts
      detached := t.hub.detached }

/-- A context that has not been released has noted who asks, and nothing else has been done. -/
theorem shrugs_keep (there : hub.context? x = some c) (isX : c.id = x)
    (stands : c.destroying = false) (ids : IdSource) (sessions : Nat) (outcome : Outcome) :
    hub.Shrugs x c e fault { hub := { hub.keep (c.noting e) with ids, sessions }, outcome } := by
  have found : ∀ y, ({ hub.keep (c.noting e) with ids, sessions } : Hub).context? y
      = if y = x then some (c.noting e) else hub.context? y := context?_keep there isX
  constructor
  · rfl
  · rw [found, if_pos rfl, stands]
    rfl
  · intro y other
    rw [found, if_neg other]
  · intro released
    rw [stands] at released
    cases released
  · unfold Hub.keep
    split <;> rfl

/-- **Events that a context refuses change nothing.** Whatever has happened to a hub, whichever
event one of its contexts is sent, and whatever the media channel has to say if an agent is to be
made: the event is answered, and if there is a fault, then nothing is left of it but what `Shrugs`
says. -/
theorem failed_events_change_nothing {hub : Hub} (fresh : hub.IsFresh) (acts : List Act) {x : Id}
    {c : Context} (there : (hub.after acts).context? x = some c) (e : Event)
    (answer : Event → Except Fault Event) :
    ∃ result e', (((hub.after acts).deliver c e).seenThrough answer).outcome
        = .handled result e' ∧
      ∀ fault, result = .error fault →
        (hub.after acts).Shrugs x c e fault
          (((hub.after acts).deliver c e).seenThrough answer) := by
  have fit := fresh.fit_after acts
  have isX := fit.tidy.id there
  cases (hub.after acts).deliver_cases c e with
  | refused fault refuses comes =>
    obtain ⟨released, rfl⟩ := Context.receive_eq_error_iff.1 refuses
    rw [comes, HubTurn.seenThrough_of_done rfl]
    refine ⟨_, e, rfl, ?_⟩
    rintro _ ⟨⟩
    refine ⟨rfl, ?_, fun _ _ => rfl, fun _ => ⟨rfl, rfl⟩, rfl⟩
    rw [there, released]
    rfl
  | unclear d received asks comes =>
    obtain ⟨stands, rfl⟩ := Context.receive_eq_ok_iff.1 received
    rw [comes, HubTurn.seenThrough_of_done rfl]
    exact ⟨_, e, rfl, fun fault _ => shrugs_keep there isX stands _ _ _⟩
  | begins d msg received asks asked comes =>
    obtain ⟨stands, rfl⟩ := Context.receive_eq_ok_iff.1 received
    have noted : ((hub.after acts).keep (c.noting e)).context? (c.noting e).id
        = some (c.noting e) :=
      (@context?_keep _ x c (c.noting e) there isX _).trans (if_pos isX)
    rw [comes]
    cases makes_cases noted msg (.event e) answer with
    | fails ids sessions fault ends =>
      rw [ends]
      exact ⟨_, _, rfl, fun fault _ => shrugs_keep there isX stands ids sessions _⟩
    | joins a ids sessions minted begun makes ends =>
      rw [ends]
      refine ⟨_, _, rfl, ?_⟩
      rintro _ ⟨⟩
  | carries d received other comes =>
    obtain ⟨stands, rfl⟩ := Context.receive_eq_ok_iff.1 received
    have sorted : (c.noting e).agents.Sorted :=
      fit.agents_sorted (c := c) (fit.held_of_stands there stands)
    rw [comes, HubTurn.seenThrough_of_done rfl]
    refine ⟨_, e, rfl, fun fault failed => ?_⟩
    obtain ⟨same, silent⟩ := Context.carryOut_of_fault sorted
      (fun here => (fresh.manned_after acts).agents there here) failed
    rw [same, silent]
    exact shrugs_keep there isX stands _ _ _

/-- In a sharing session the sink is said to have finished destroying while its source is there. -/
theorem failed_events_change_nothing_in_sharing : ∃ e e' c,
    Act.say .contextAgentDestroyed 1 2 = .event e ∧
    (loopback.after Act.sharing).context? 1 = some c ∧
    (((loopback.after Act.sharing).deliver c e).seenThrough .ok).outcome
      = .handled (.error .general) e' ∧
    (loopback.after Act.sharing).Shrugs 1 c e .general
      (((loopback.after Act.sharing).deliver c e).seenThrough .ok) := by
  obtain ⟨e, e₀, c, isE, there, failed⟩ : ∃ e e₀ c,
      Act.say .contextAgentDestroyed 1 2 = .event e ∧
      (loopback.after Act.sharing).context? 1 = some c ∧
      (((loopback.after Act.sharing).deliver c e).seenThrough .ok).outcome
        = .handled (.error .general) e₀ := ⟨_, _, _, rfl, rfl, rfl⟩
  obtain ⟨result, e', outcome, nothing⟩ :=
    failed_events_change_nothing isFresh_loopback Act.sharing there e .ok
  obtain ⟨rfl, rfl⟩ := Outcome.handled.inj (failed.symm.trans outcome)
  exact ⟨e, e₀, c, isE, there, failed, nothing .general rfl⟩

end Hub

end CastHub
