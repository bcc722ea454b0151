import CastHub.Proofs.Journal
import CastHub.Service.Basic
/-!
# A service's dealings with its hub

A service sees every event that it consults its hub about through to the end: if an agent is to be
made, its session is built and the media channel is asked, while nobody else does anything. For the
hub that is one turn (`Hub.attend`), or a few acts in a row (`Hub.doings`).

Much may happen to a service in any order: events are posted, or sent to the hub for somebody who
waits; what stands first in the queue is delivered; and sessions speak up, among other things that
happen to the hub (`Move`). Whatever it is, the hub of a service is a hub to which some acts have
happened (`Service.hub_run`).
-/

namespace CastHub

/-! ## An event from beginning to end -/

namespace HubTurn

/-- Goes on, if there is anything to go on with. -/
def goesOn (t : HubTurn) (next : Option HubTurn) : HubTurn :=
  match next with
  | none => t
  | some u => { u with effects := t.effects ++ u.effects }

/-- Lets the media channel answer, if an operation waits for that. -/
def withAnswer (answer : Event → Except Fault Event) (t : HubTurn) : HubTurn :=
  match t.outcome with
  | .asking request => t.goesOn (t.hub.answered (answer request))
  | _ => t

/-- Builds a session, if an operation waits for it, and then lets the media channel answer. -/
def seenThrough (answer : Event → Except Fault Event) (t : HubTurn) : HubTurn :=
  match t.outcome with
  | .building _ => (t.goesOn t.hub.built).withAnswer answer
  | _ => t.withAnswer answer

/-- The act by which the media channel answers, if an operation waits for that. -/
def answering (answer : Event → Except Fault Event) (t : HubTurn) : List Act :=
  match t.outcome with
  | .asking request => [.answered (answer request)]
  | _ => []

/-- The acts by which an operation is seen through. -/
def following (answer : Event → Except Fault Event) (t : HubTurn) : List Act :=
  match t.outcome with
  | .building _ => .built :: t.hub.built.elim [] (answering answer)
  | _ => t.answering answer

end HubTurn

/-- What whoever waits for an event to be handled is told. -/
def Outcome.answer : Outcome → Except Fault Event
  | .handled result e => result.map fun _ => e
  | _ => .error .general

namespace Hub

/-- Handles an event and sees it through, while nobody else does anything; `answer` is what the
media channel has to say. -/
def attend (hub : Hub) (answer : Event → Except Fault Event) (e : Event) : HubTurn :=
  (hub.handle e).seenThrough answer

/-- What happens to a hub that handles an event and sees it through, act by act. -/
def doings (hub : Hub) (answer : Event → Except Fault Event) (e : Event) : List Act :=
  .event e :: (hub.handle e).following answer

theorem perform_built {hub : Hub} {t : HubTurn} (made : hub.built = some t) :
    hub.perform .built = t.done := by
  simp only [Hub.perform, made, Option.map_some, Option.getD_some]

theorem perform_answered {hub : Hub} {answer : Except Fault Event} {t : HubTurn}
    (made : hub.answered answer = some t) : hub.perform (.answered answer) = t.done := by
  simp only [Hub.perform, made, Option.map_some, Option.getD_some]

theorem hub_withAnswer (answer : Event → Except Fault Event) (t : HubTurn) :
    (t.withAnswer answer).hub = t.hub.after (t.answering answer) := by
  unfold HubTurn.withAnswer HubTurn.answering
  split
  · rename_i request _
    show _ = (t.hub.perform (.answered (answer request))).hub
    cases made : t.hub.answered (answer request) with
    | none =>
      simp only [Hub.perform, made, Option.map_none, Option.getD_none]
      rfl
    | some u =>
      rw [perform_answered made]
      rfl
  · rfl

theorem hub_seenThrough (answer : Event → Except Fault Event) (t : HubTurn) :
    (t.seenThrough answer).hub = t.hub.after (t.following answer) := by
  unfold HubTurn.seenThrough HubTurn.following
  split
  · rename_i waits
    show _ = (t.hub.perform .built).hub.after _
    cases made : t.hub.built with
    | none =>
      simp only [Hub.perform, made, Option.map_none, Option.getD_none]
      show (t.withAnswer answer).hub = t.hub
      unfold HubTurn.withAnswer
      rw [waits]
    | some u =>
      rw [perform_built made]
      have same : ∀ answer, (({ u with effects := t.effects ++ u.effects } : HubTurn).withAnswer
          answer).hub = (u.withAnswer answer).hub := by
        intro answer
        rw [hub_withAnswer, hub_withAnswer]
        rfl
      exact (same answer).trans (hub_withAnswer answer u)
  · exact hub_withAnswer answer t

/-- To see an event through is to do the acts that it takes. -/
theorem hub_attend (hub : Hub) (answer : Event → Except Fault Event) (e : Event) :
    (hub.attend answer e).hub = hub.after (hub.doings answer e) :=
  hub_seenThrough answer (hub.handle e)

end Hub

/-! ## A service and its hub -/

namespace Service

/-- What an endpoint would answer. -/
def answerTo (s : Service) (e : Event) : Except Fault Event :=
  match s.endpoint? e.target with
  | none => .error .general
  | some endpoint => (endpoint.ask e).1

theorem send_keeps (s : Service) (envelope : Envelope) :
    (s.send envelope).hub = s.hub ∧ (s.send envelope).endpoints = s.endpoints := by
  unfold Service.send
  split <;> exact ⟨rfl, rfl⟩

theorem perform_keeps (s : Service) (effect : Effect) :
    (s.perform effect).hub = s.hub ∧ (s.perform effect).endpoints = s.endpoints := by
  cases effect with
  | post e => exact (s.record e).send_keeps (.post e)
  | call t k => exact ⟨rfl, rfl⟩
  | resetAudio => exact ⟨rfl, rfl⟩

theorem performAll_keeps (s : Service) (effects : List Effect) :
    (effects.foldl Service.perform s).hub = s.hub ∧
      (effects.foldl Service.perform s).endpoints = s.endpoints := by
  induction effects generalizing s with
  | nil => exact ⟨rfl, rfl⟩
  | cons effect rest ih =>
    obtain ⟨hub, endpoints⟩ := s.perform_keeps effect
    obtain ⟨later, others⟩ := ih (s.perform effect)
    exact ⟨later.trans hub, others.trans endpoints⟩

theorem adopt_keeps (s : Service) (t : HubTurn) :
    (s.adopt t).hub = t.hub ∧ (s.adopt t).endpoints = s.endpoints :=
  performAll_keeps { s with hub := t.hub } t.effects

theorem ask_eq (s : Service) (e : Event) :
    (s.ask e).1 = s.answerTo e ∧ (s.ask e).2.hub = s.hub := by
  unfold Service.ask answerTo
  simp only [show (s.record e).endpoint? e.target = s.endpoint? e.target from rfl]
  cases s.endpoint? e.target with
  | none => exact ⟨rfl, rfl⟩
  | some endpoint =>
    simp only
    split
    · rename_i fault answer
      exact ⟨answer.symm, rfl⟩
    · rename_i reply answer
      exact ⟨answer.symm, rfl⟩

theorem awaitChannel_eq (s : Service) (t : HubTurn) :
    (s.awaitChannel t).1.hub = (t.withAnswer s.answerTo).hub ∧
      (s.awaitChannel t).2 = (t.withAnswer s.answerTo).outcome := by
  obtain ⟨adopts, endpoints⟩ := s.adopt_keeps t
  unfold Service.awaitChannel HubTurn.withAnswer
  cases waits : t.outcome with
  | asking request =>
    obtain ⟨answer, same⟩ := (s.adopt t).ask_eq request
    have answer : ((s.adopt t).ask request).1 = s.answerTo request := by
      rw [answer]
      unfold answerTo endpoint?
      rw [endpoints]
    simp only [answer, same, adopts]
    cases t.hub.answered (s.answerTo request) with
    | none => exact ⟨same.trans adopts, waits.symm⟩
    | some u => exact ⟨(adopt_keeps _ u).1, rfl⟩
  | _ => exact ⟨adopts, waits.symm⟩

/-- A service sees an operation of its hub through. -/
theorem await_eq (s : Service) (t : HubTurn) :
    (s.await t).1.hub = (t.seenThrough s.answerTo).hub ∧
      (s.await t).2 = (t.seenThrough s.answerTo).outcome := by
  obtain ⟨adopts, endpoints⟩ := s.adopt_keeps t
  unfold Service.await HubTurn.seenThrough
  cases waits : t.outcome with
  | building className =>
    have same : (s.adopt t).answerTo = s.answerTo := by
      funext e
      unfold answerTo endpoint?
      rw [endpoints]
    simp only [adopts]
    cases t.hub.built with
    | none =>
      show (s.adopt t).hub = (t.withAnswer s.answerTo).hub ∧ _ = (t.withAnswer s.answerTo).outcome
      unfold HubTurn.withAnswer
      rw [waits]
      exact ⟨adopts, waits.symm⟩
    | some u =>
      obtain ⟨hub, outcome⟩ := (s.adopt t).awaitChannel_eq u
      show ((s.adopt t).awaitChannel u).1.hub = _ ∧ ((s.adopt t).awaitChannel u).2 = _
      rw [hub, outcome, same]
      unfold HubTurn.withAnswer HubTurn.goesOn
      cases u.outcome with
      | asking request =>
        dsimp only
        cases u.hub.answered (s.answerTo request) <;> exact ⟨rfl, rfl⟩
      | _ => exact ⟨rfl, rfl⟩
  | _ => exact s.awaitChannel_eq t

/-- Whatever the hub is told, whoever answers says how it went, and nothing else. -/
theorem consult_snd (s : Service) (e : Event) :
    (s.consult e).2 = (s.await (s.hub.handle e)).1 := by
  unfold Service.consult
  split <;> rename_i awaited <;> rw [awaited]

/-- **A service sees events through.** -/
theorem hub_consult (s : Service) (e : Event) :
    (s.consult e).2.hub = (s.hub.attend s.answerTo e).hub := by
  rw [consult_snd]
  exact (s.await_eq _).1

/-- Whoever waits for an event to be handled is told how that went. -/
theorem consult_fst (s : Service) (e : Event) :
    (s.consult e).1 = (s.hub.attend s.answerTo e).outcome.answer := by
  have outcome : (s.await (s.hub.handle e)).2 = (s.hub.attend s.answerTo e).outcome :=
    (s.await_eq _).2
  rw [← outcome]
  unfold Service.consult
  obtain ⟨_, told⟩ := s.await (s.hub.handle e)
  cases told <;> rfl

/-! ## Whatever happens to a service -/

/-- Something happens to the hub of a service. -/
def undergo (s : Service) (act : Act) : Service :=
  (s.hub.perform act).effects.foldl perform { s with hub := (s.hub.perform act).hub }

theorem undergo_eq_adopt {s : Service} {act : Act} {t : HubTurn}
    (comes : s.hub.perform act = t.done) : s.undergo act = s.adopt t := by
  unfold undergo
  rw [comes]
  rfl

theorem undergo_event (s : Service) (e : Event) :
    s.undergo (.event e) = s.adopt (s.hub.handle e) := rfl

theorem hub_undergo (s : Service) (act : Act) : (s.undergo act).hub = (s.hub.perform act).hub :=
  (performAll_keeps _ _).1

/-- Nobody is waited for: the service goes on with what the hub has done. -/
theorem consult_of_handled {s : Service} {e e' : Event} {result : Except Fault Unit}
    (handled : (s.hub.handle e).outcome = .handled result e') :
    (s.consult e).2 = s.undergo (.event e) := by
  rw [consult_snd, undergo_event]
  unfold Service.await
  rw [handled]
  unfold Service.awaitChannel
  simp only [handled]

/-- What happens to the hub when an event is given to whom it is addressed. -/
def dealings (s : Service) (e : Event) : List Act :=
  match e.target with
  | .hub | .context => s.hub.doings s.answerTo e
  | _ => []

/-- What happens to the hub when an envelope is delivered. -/
def errand (s : Service) : Envelope → List Act
  | .post e => s.dealings e
  | .request e => s.hub.doings s.answerTo e
  | .shutdown => []

theorem hub_dispatch (s : Service) (e : Event) :
    (s.dispatch e).hub = s.hub.after (s.dealings e) := by
  have told : ∀ endpoint : Option Endpoint, (endpoint.elim s (s.tell · e)).hub = s.hub := by
    rintro (_ | channel | _ | ⟨number, plan⟩)
    · rfl
    · show ((MediaChannel.hear e).elim s s.post).hub = s.hub
      cases MediaChannel.hear e with
      | none => rfl
      | some reply => exact ((s.record reply).send_keeps _).1
    · rfl
    · rfl
  unfold dispatch dealings
  cases e.target with
  | hub | context => exact (s.hub_consult e).trans (Hub.hub_attend ..)
  | _ => exact told _

theorem hub_deliver (s : Service) (envelope : Envelope) :
    (s.deliver envelope).2.hub = s.hub.after (s.errand envelope) := by
  cases envelope with
  | post e => exact s.hub_dispatch e
  | request e =>
    show (s.consult e).2.hub = s.hub.after (s.hub.doings s.answerTo e)
    rw [hub_consult, Hub.hub_attend]
  | shutdown => rfl

end Service

/-- Something that happens to a service. -/
inductive Move where
  /-- An event is posted. -/
  | post (event : Event)
  /-- An event is sent to the hub, and somebody waits for it to be handled. -/
  | submit (event : Event)
  /-- What stands first in the queue is delivered. -/
  | delivery
  /-- Something else happens to the hub. -/
  | act (act : Act)

namespace Service

/-- A service after one move. -/
def move (s : Service) : Move → Service
  | .post e => s.post e
  | .submit e => s.submit e
  | .delivery => s.next.2
  | .act act => s.undergo act

/-- A service after several moves. -/
def run (s : Service) (moves : List Move) : Service := moves.foldl move s

/-- What happens to the hub at one move. -/
def happenings (s : Service) : Move → List Act
  | .delivery => s.queue.head?.elim [] s.errand
  | .act act => [act]
  | _ => []

/-- What happens to the hub meanwhile. -/
def acts (s : Service) : List Move → List Act
  | [] => []
  | m :: rest => s.happenings m ++ (s.move m).acts rest

theorem hub_move (s : Service) (m : Move) : (s.move m).hub = s.hub.after (s.happenings m) := by
  cases m with
  | post e => exact ((s.record e).send_keeps _).1
  | submit e => exact ((s.record e).send_keeps _).1
  | delivery =>
    show s.next.2.hub = _
    unfold next happenings
    cases s.queue with
    | nil => rfl
    | cons envelope rest => exact hub_deliver { s with queue := rest } envelope
  | act act => exact s.hub_undergo act

/-- **Whatever happens to a service, its hub is one to which some acts have happened.** -/
theorem hub_run (s : Service) (moves : List Move) :
    (s.run moves).hub = s.hub.after (s.acts moves) := by
  induction moves generalizing s with
  | nil => rfl
  | cons m rest ih =>
    show ((s.move m).run rest).hub = s.hub.after (s.happenings m ++ (s.move m).acts rest)
    rw [Hub.after_append, ← hub_move]
    exact ih (s.move m)

theorem run_append (s : Service) (moves more : List Move) :
    s.run (moves ++ more) = (s.run moves).run more := List.foldl_append ..

end Service

end CastHub
