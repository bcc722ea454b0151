import CastHub.Proofs.Completion
import CastHub.Proofs.Persistence
/-!
# Changes of media objects come back

A session asks for a change of its media object, its context passes that on to the media channel,
and the media channel reports the change by way of the hub. Both stand in the queue of the service
until it is their turn, and however much happens in between, the report is for the session that has
asked, or for nobody (`Service.media_status_returns`).

An agent is named by its context and its own identity on the way there and back, and in between
nobody else can have come by these, unless its number has been handed out again
(`Hub.Fit.persists_after`). So there is one lemma for each station:

* `Context.passOn_prosumer` : a context asks the media channel;
* `MediaChannel.hear_mediaRequest` : the media channel reports to the hub;
* `Service.IsUp.returns` : both have their turn in the queue;
* `Hub.Fit.calls_mediaReply` : the hub calls the session.
-/

namespace CastHub

/-! ## Calls -/

/-- The call that an effect is. -/
def Effect.call? : Effect → Option (Session × SessionCall)
  | .call s k => some (s, k)
  | _ => none

/-- Whether an effect is a call of a session. -/
def Effect.isCall (effect : Effect) : Bool := effect.call?.isSome

/-- The calls among several effects, in order. -/
def calls (effects : List Effect) : List (Session × SessionCall) := effects.filterMap Effect.call?

/-- No session is called when messages are passed on. -/
theorem calls_reports (c : Context) (msgs : List StatusMsg) :
    calls ((msgs.map .report).filterMap c.effectOf?) = [] := by
  refine List.filterMap_eq_nil_iff.2 fun effect mem => ?_
  obtain ⟨_, _, _, _, rfl⟩ := Context.post_of_passOn mem
  rfl

/-! ## Agents -/

namespace Agent

/-- A change of an agent's media object is asked for, in the context `x`. -/
def mediaRequest (a : Agent) (x : Id) (change : MediaChange) : Event :=
  { kind := .changeMedia a.role change, sender := .context, target := .mediaChannel, src := x,
    dst := a.channel, payload := .channel ⟨a.id, a.channel, a.id, none⟩ }

/-- A change of an agent's media object is reported, to the context `x`. -/
def mediaReply (a : Agent) (x : Id) (change : MediaChange) : Event :=
  { kind := .prosumerState change, sender := .mediaChannel, target := .hub, src := a.channel,
    dst := x, payload := .agent { agent := a.id } }

/-- Whether an agent takes note of a change of its media object: of any, and once its teardown has
begun of its end only. -/
def minds (a : Agent) (change : MediaChange) : Bool :=
  !a.destroying || change = .stop || change = .destroy

variable {a : Agent} {e : Event} {change : MediaChange}

theorem isDestroyRelated_prosumerState (change : MediaChange) :
    (EventKind.prosumerState change).isDestroyRelated = (change = .stop || change = .destroy) := by
  cases change <;> rfl

/-- An agent that takes note of a change calls its session, once. -/
theorem acts_of_minds {s : Session} (has : a.session = some s)
    (kind : e.kind = .prosumerState change) (minds : a.minds change = true) :
    ∃ msgs : List StatusMsg, (a.handle e).acts = .call s (.media change) :: msgs.map .report := by
  have accepted : ¬ (a.destroying = true ∧ ¬ e.kind.isDestroyRelated = true) := by
    rintro ⟨destroying, other⟩
    rw [kind, isDestroyRelated_prosumerState] at other
    unfold Agent.minds at minds
    rw [destroying] at minds
    exact other minds
  unfold handle
  rw [if_neg accepted, kind]
  unfold drive
  rw [has]
  exact ⟨_, rfl⟩

/-- An agent that does not take note of a change does nothing. -/
theorem acts_of_not_minds (kind : e.kind = .prosumerState change) (not : a.minds change = false) :
    (a.handle e).acts = [] := by
  obtain ⟨destroying, other⟩ : a.destroying = true ∧ e.kind.isDestroyRelated = false := by
    rw [kind, isDestroyRelated_prosumerState]
    unfold minds at not
    revert not
    cases a.destroying <;> simp
  unfold handle
  rw [if_pos ⟨destroying, by rw [other]; exact Bool.false_ne_true⟩]

end Agent

/-! ## Contexts -/

namespace Context

variable {c : Context}

/-- **A context asks the media channel** for whatever change a session of it asks for, by one event
that goes to the agent's channel. -/
theorem passOn_prosumer {a b : Agent} (here : c.agents.get? b.id = some a) (later : a.Persists b)
    (change : MediaChange) :
    c.passOn (b.hear (.prosumer change)).2 = [.post (a.mediaRequest c.id change)] := by
  rw [later.id] at here
  have routed : c.route (b.statusMsg .mediaChannel (.changeMedia b.role change))
      = .ok (a.mediaRequest c.id change) := by
    simp only [route, Agent.statusMsg, Agent.mediaRequest, later.id, later.role, here,
      Option.map_some, Option.getD_some]
  have seen : c.effectOf? (.report (b.statusMsg .mediaChannel (.changeMedia b.role change)))
      = some (.post (a.mediaRequest c.id change)) := by
    simp only [effectOf?, routed, Except.toOption, Option.map_some]
  exact List.filterMap_cons_some seen

/-- Before the next session is called, clients are given notice only. -/
theorem Speaks.notices {effects quiet said rest : List Effect} (h : c.Speaks effects)
    (mute : Mute quiet) (split : effects ++ quiet = said ++ rest)
    (silent : ∀ effect ∈ said, effect.isCall = false) {e : Event} (mem : .post e ∈ said) :
    e.kind = .noticeDestroyed ∨ e.kind = .noticeError := by
  induction h generalizing said with
  | nil =>
    have mem : .post e ∈ quiet := by
      rw [show quiet = said ++ rest from split]
      exact List.mem_append_left _ mem
    cases mute.only _ mem
  | @notice e' effects kind _ _ ih =>
    cases said with
    | nil => cases mem
    | cons first said =>
      obtain ⟨rfl, follow⟩ := List.cons.inj split
      rcases List.mem_cons.1 mem with same | later
      · obtain rfl := Effect.post.inj same
        exact kind
      · exact ih follow (fun effect mem => silent effect (List.mem_cons_of_mem _ mem)) later
  | call =>
    cases said with
    | nil => cases mem
    | cons first said =>
      obtain ⟨rfl, _⟩ := List.cons.inj split
      cases silent _ (List.mem_cons_self ..)

end Context

/-! ## The media channel -/

/-- **The media channel reports** every change that it is asked for, by one event that goes to where
the request came from. -/
theorem MediaChannel.hear_mediaRequest (a : Agent) (x : Id) (change : MediaChange) :
    hear (a.mediaRequest x change) = some (a.mediaReply x change) :=
  hear_changeMedia rfl rfl

/-! ## The hub -/

namespace Hub

/-- An agent in a context that the hub holds. -/
def agent? (hub : Hub) (x id : Id) : Option Agent := (hub.contexts.get? x).bind (·.agents.get? id)

/-- What is said after the call `k` of the session `s`, until the next session is called: the
session is that of the agent `a` in the context `x`; all its news is passed on, piece by piece, and
each change that it asks for by asking the media channel, once. Apart from that clients are given
notice. -/
structure Relays (hub : Hub) (x : Id) (a : Agent) (s : Session) (k : SessionCall)
    (said : List Effect) : Prop where
  here : hub.agent? x a.id = some a
  owns : ∃ r, a.session = some r ∧ r.Grows s
  passes : ∃ (told : SessionNews → List Effect) (notices : List Effect),
    said = (s.call k).1.news.flatMap told ++ notices ∧
    (∀ change, told (.prosumer change) = [.post (a.mediaRequest x change)]) ∧
    ∀ e, .post e ∈ notices → e.kind = .noticeDestroyed ∨ e.kind = .noticeError

variable {hub : Hub} {x id : Id} {c : Context} {a : Agent}

theorem agent?_eq_some (there : hub.agent? x id = some a) :
    ∃ c, hub.contexts.get? x = some c ∧ c.agents.get? id = some a := Option.bind_eq_some_iff.1 there

/-- Whatever is said after a call is news of the session that was called. -/
theorem Fit.relays_perform (h : hub.Fit) {act : Act} {earlier later : List Effect} {s : Session}
    {k : SessionCall} (called : (hub.perform act).effects = earlier ++ .call s k :: later) :
    ∃ x a, hub.Relays x a s k (later.takeWhile (!·.isCall)) := by
  have mem : .call s k ∈ (hub.perform act).effects :=
    called ▸ List.mem_append_right _ (List.mem_cons_self ..)
  have loud : ∀ {quiet : List Effect}, Mute quiet → .call s k ∉ quiet := fun mute mem =>
    nomatch mute.only _ mem
  cases h.says_perform act with
  | nothing mute => exact absurd mem (loud mute)
  | passed y id news c a isNews there here said =>
    obtain ⟨_, _, _, _, isPost⟩ := Context.post_of_passOn (said ▸ mem)
    cases isPost
  | spoken y c d said quiet addressed held isY same speaks mute all =>
    -- the call is one of those that the context makes
    obtain ⟨rest, follows, isLater⟩ : ∃ rest, said = earlier ++ .call s k :: rest ∧
        later = rest ++ quiet := by
      rcases List.append_eq_append_iff.1 (called.symm.trans all) with
        ⟨more, isSaid, isRest⟩ | ⟨more, _, isQuiet⟩
      · cases more with
        | nil =>
          have now : .call s k ∈ quiet := by
            rw [show quiet = .call s k :: later from isRest.symm]
            exact List.mem_cons_self ..
          exact absurd now (loud mute)
        | cons first rest =>
          obtain ⟨rfl, isLater⟩ := List.cons.inj isRest
          exact ⟨rest, isSaid, isLater⟩
      · exact absurd (isQuiet ▸ List.mem_append_right _ (List.mem_cons_self ..)) (loud mute)
    obtain ⟨a, b, more, here, persists, has, isNews, goesOn⟩ := speaks.after_call follows
    obtain ⟨r, before, grows⟩ := persists.some_of_session has
    refine ⟨y, a, ?_, ⟨r, before, grows⟩, fun n => d.passOn (b.hear n).2,
      (more ++ quiet).takeWhile (!·.isCall), ?_, fun change => ?_, fun e posted => ?_⟩
    · unfold agent?
      rw [held, Option.bind_some, ← same, ← persists.id, here]
    · have quietly : ∀ effect ∈ (s.call k).1.news.flatMap (fun n => d.passOn (b.hear n).2),
          (!effect.isCall) = true := by
        intro effect mem
        obtain ⟨_, _, passed⟩ := List.mem_flatMap.1 mem
        obtain ⟨_, _, _, _, rfl⟩ := Context.post_of_passOn passed
        rfl
      rw [isLater, isNews, List.append_assoc, List.takeWhile_append_of_pos quietly]
    · rw [← isY]
      exact Context.passOn_prosumer here persists change
    · refine goesOn.notices mute (List.takeWhile_append_dropWhile ..).symm
        (fun effect mem => ?_) posted
      exact (Bool.not_eq_true' _).mp (List.all_eq_true.1 List.all_takeWhile effect mem)

/-- A change that a session asks for unasked is asked of the media channel. -/
theorem Fit.overhear_prosumer (h : hub.Fit) (there : hub.agent? x a.id = some a)
    (change : MediaChange) : (hub.perform (.news x a.id (.prosumer change))).effects
      = [.post (a.mediaRequest x change)] := by
  obtain ⟨c, held, here⟩ := agent?_eq_some there
  have reached : (c.agents.has a.id && hub.reaches x) = true := by
    unfold reaches Table.has
    rw [here, held]
    rfl
  have isX := (h.tidy.held held).1
  show (hub.overhear x a.id (.prosumer change)).effects = _
  unfold Hub.overhear
  rw [context?_of_held held]
  simp only [reached, if_true]
  rw [← isX, ← Context.passOn_prosumer here (.refl a) change, Context.tell_of_here here]
  rfl

/-- A report goes to the agent that it names, if that is in a context that the hub holds. -/
theorem Fit.effects_mediaReply (h : hub.Fit) (a : Agent) (x : Id) (change : MediaChange) :
    (hub.agent? x a.id = none ∧ (hub.handle (a.mediaReply x change)).effects = []) ∨
    ∃ (b : Agent) (d : Context), hub.agent? x a.id = some b ∧
      (hub.handle (a.mediaReply x change)).effects
        = (b.handle (a.mediaReply x change)).acts.filterMap d.effectOf? := by
  cases held : hub.contexts.get? x with
  | none =>
    refine .inl ⟨?_, ?_⟩
    · unfold agent?
      rw [held]
      rfl
    · rw [@handle_of_missing hub (a.mediaReply x change) rfl held]
  | some c =>
    obtain ⟨d, received⟩ := h.receive_of_held held (a.mediaReply x change)
    have found : hub.agent? x a.id = d.agents.get? a.id := by
      unfold agent?
      rw [held, agents_of_receive received]
      rfl
    have tells : (hub.handle (a.mediaReply x change)).effects
        = (d.tell a.id (·.handle (a.mediaReply x change))).effects := by
      rw [@handle_of_held hub (a.mediaReply x change) rfl c d held received]
      rfl
    rw [found, tells]
    cases here : d.agents.get? a.id with
    | none =>
      rw [Context.tell_of_missing here]
      exact .inl ⟨rfl, rfl⟩
    | some b =>
      rw [Context.tell_of_here here]
      exact .inr ⟨b, d, rfl, rfl⟩

/-- **The hub calls the session** of the agent that a change is reported to, and no other: if the
agent is still in the context, and takes note of the change. -/
theorem Fit.calls_mediaReply (h : hub.Fit) (manned : hub.Manned) (a : Agent) (x : Id)
    (change : MediaChange) :
    (∀ b, hub.agent? x a.id = some b → b.minds change = true → ∃ s, b.session = some s ∧
      calls (hub.handle (a.mediaReply x change)).effects = [(s, .media change)]) ∧
    ((∀ b, hub.agent? x a.id = some b → b.minds change = false) →
      calls (hub.handle (a.mediaReply x change)).effects = []) := by
  rcases h.effects_mediaReply a x change with ⟨missing, silent⟩ | ⟨b, d, there, effects⟩
  · rw [missing, silent]
    exact ⟨fun _ found => (nomatch found), fun _ => rfl⟩
  · obtain ⟨c, held, here⟩ := agent?_eq_some there
    obtain ⟨s, has⟩ := Option.isSome_iff_exists.1 (manned.agents (context?_of_held held) here)
    rw [there, effects]
    constructor
    · rintro _ ⟨⟩ minds
      obtain ⟨msgs, acts⟩ := @Agent.acts_of_minds b (a.mediaReply x change) change s has rfl minds
      rw [acts]
      exact ⟨s, has, congrArg ((s, SessionCall.media change) :: ·) (calls_reports d msgs)⟩
    · intro nobody
      rw [@Agent.acts_of_not_minds b (a.mediaReply x change) change rfl (nobody b rfl)]
      rfl

/-- What a hub makes of the report of a change. The session of the agent is told of it, once, and no
other session is called, if the agent is still in the context and takes note of the change;
otherwise no session is called. -/
structure Tells (hub : Hub) (x : Id) (a : Agent) (change : MediaChange) : Prop where
  told : ∀ b, hub.agent? x a.id = some b → b.minds change = true →
    ∃ s, a.Persists b ∧ b.session = some s ∧
      calls (hub.perform (.event (a.mediaReply x change))).effects = [(s, .media change)]
  untold : (∀ b, hub.agent? x a.id = some b → b.minds change = false) →
    calls (hub.perform (.event (a.mediaReply x change))).effects = []

/-- Whoever is found under an agent's number when a report comes back has become of the agent, if
the number has not been handed out again. -/
theorem Sound.tells_after (h : hub.Sound) (there : hub.agent? x a.id = some a) {acts : List Act}
    (once : a.id ∉ minted (hub.journal acts)) (manned : (hub.after acts).Manned)
    (change : MediaChange) : (hub.after acts).Tells x a change := by
  obtain ⟨c, held, here⟩ := agent?_eq_some there
  obtain ⟨cs, undergoes⟩ := h.toFit.after acts
  obtain ⟨told, untold⟩ :=
    (undergoes.fit h.toFit).calls_mediaReply manned a x change
  refine ⟨fun b later minds => ?_, untold⟩
  obtain ⟨s, has, called⟩ := told b later minds
  obtain ⟨c', held', here'⟩ := agent?_eq_some later
  have unexpected := h.sound.not_expects (holds_of_context? (context?_of_held held))
    (Context.member_of_agent here)
  obtain ⟨d, a', there', before, persists⟩ :=
    h.toFit.persists_after unexpected once (context?_of_held held') here'
  obtain rfl := Option.some.inj ((context?_of_held held).symm.trans there')
  obtain rfl := Option.some.inj (here.symm.trans before)
  exact ⟨s, persists, has, called⟩

end Hub

/-! ## The service -/

namespace Service

variable {s : Service} {x : Id} {a : Agent} {change : MediaChange}

/-- The way of a change that is asked for, and back. When the request has its turn, the media
channel hears it, its report goes to the end of the queue, and nothing else comes of that. When the
report has its turn, after any other `back` moves, the hub handles it. -/
def Returns (s : Service) (x : Id) (a : Agent) (change : MediaChange) (there back : List Move) :
    Prop :=
  ∃ rest, (s.run there).queue = .post (a.mediaRequest x change) :: rest ∧
    (s.run there).next.2.queue = rest ++ [.post (a.mediaReply x change)] ∧
    (s.run there).next.2.hub = (s.run there).hub ∧
    (deliveries back = rest.length →
      ∃ others, (s.run (there ++ .delivery :: back)).queue
          = .post (a.mediaReply x change) :: others ∧
        (s.run (there ++ .delivery :: back)).next.2
          = undergo { s.run (there ++ .delivery :: back) with queue := others }
              (.event (a.mediaReply x change)))

/-- The request is heard. -/
theorem IsUp.next_mediaRequest (up : s.IsUp) {rest : List Envelope}
    (queue : s.queue = .post (a.mediaRequest x change) :: rest) :
    { s with queue := rest }.Continues s.hub [.post (a.mediaReply x change)] s.next.2 := by
  have up' : IsUp { s with queue := rest } := ⟨up.isOpen, up.channel⟩
  have heard : s.next.2 = Service.post { s with queue := rest } (a.mediaReply x change) := by
    rw [Service.next, queue]
    show Service.dispatch { s with queue := rest } (a.mediaRequest x change) = _
    rw [up'.dispatch rfl, MediaChannel.hear_mediaRequest]
    rfl
  rw [heard]
  exact up'.post _

/-- The report is handled. -/
theorem next_mediaReply {rest : List Envelope}
    (queue : s.queue = .post (a.mediaReply x change) :: rest) :
    s.next.2 = undergo { s with queue := rest } (.event (a.mediaReply x change)) := by
  obtain ⟨result, e, handled⟩ := @Hub.handled_handle s.hub (a.mediaReply x change)
    EventKind.noConfusion EventKind.noConfusion
  rw [Service.next, queue]
  exact @dispatch_of_handled { s with queue := rest } _ _ _ rfl handled

/-- **A request for a change has its turn, and so has the report.** -/
theorem IsUp.returns (up : s.IsUp) (lasts : .shutdown ∉ s.queue) {ahead behind : List Envelope}
    (queue : s.queue = ahead ++ .post (a.mediaRequest x change) :: behind) {there : List Move}
    (turn : deliveries there = ahead.length) (back : List Move) :
    s.Returns x a change there back := by
  have first : .shutdown ∉ ahead := fun mem => lasts (queue ▸ List.mem_append_left _ mem)
  obtain ⟨more, isFirst, _⟩ := (run_ahead queue first turn).queue
  obtain ⟨up', lasts'⟩ := up.run lasts there
  have heard := up'.next_mediaRequest isFirst
  have all : s.run (there ++ .delivery :: back) = (s.run there).next.2.run back := run_append ..
  refine ⟨behind ++ more, isFirst, heard.queue, heard.hub, fun turn' => ?_⟩
  have ahead' : .shutdown ∉ behind ++ more := fun mem =>
    lasts' (isFirst ▸ List.mem_cons_of_mem _ mem)
  obtain ⟨others, isNext, _⟩ := (run_ahead heard.queue ahead' turn').queue
  rw [all]
  exact ⟨others, isNext, next_mediaReply isNext⟩

/-- **Changes of media objects come back.** Whatever has happened to a service with a loopback media
channel and any sessions, unless a live number has been met again:

* Whatever its hub does next, what is said after the call of a session is the session's news; each
  change that the session asks for becomes one event, which asks the media channel for it on the
  channel of the session's agent.
* A change that the session of an agent in a context asks for unasked becomes one such event, too.
* Whatever is said goes to the end of the queue. To deliver an event that the hub handles at once is
  such a doing of the hub.
* A request in the queue has its turn, however much happens meanwhile. The media channel makes one
  event of it, which goes back to that context, and this one has its turn, too.
* When that comes back, after anything else has happened, the session of the agent is told of the
  change, once, and no other session is called, if the agent is still in the context, and is not
  being destroyed or the change is the end of its media object; otherwise no session is called. For
  this the number of the agent must not have been handed out again. -/
theorem media_status_returns (up : s.IsUp) (fresh : s.hub.IsFresh) (lasts : .shutdown ∉ s.queue)
    (moves : List Move) (spares : ∀ m ∈ s.hub.journal (s.acts moves), m.Spares) :
    (∀ act earlier t k later,
      ((s.run moves).hub.perform act).effects = earlier ++ .call t k :: later →
      ∃ x a, (s.run moves).hub.Relays x a t k (later.takeWhile (!·.isCall))) ∧
    (∀ x a change, (s.run moves).hub.agent? x a.id = some a →
      ((s.run moves).hub.perform (.news x a.id (.prosumer change))).effects
        = [.post (a.mediaRequest x change)]) ∧
    (∀ act, ((s.run moves).move (.act act)).queue
      = (s.run moves).queue ++ (posts ((s.run moves).hub.perform act).effects).map .post) ∧
    (∀ e result e', ((s.run moves).hub.handle e).outcome = .handled result e' →
      ((s.run moves).consult e).2 = (s.run moves).undergo (.event e)) ∧
    ∀ x a change m ahead behind there back, (s.run moves).hub.agent? x a.id = some a →
      ((s.run moves).move m).queue = ahead ++ .post (a.mediaRequest x change) :: behind →
      deliveries there = ahead.length →
      ((s.run moves).move m).Returns x a change there back ∧
      (a.id ∉ minted ((s.run moves).hub.journal
          ((s.run moves).acts (m :: there ++ .delivery :: back))) →
        ((s.run moves).run (m :: there ++ .delivery :: back)).hub.Tells x a change) := by
  have hub := s.hub_run moves
  have sound : (s.run moves).hub.Sound := hub ▸ fresh.sound_after spares
  obtain ⟨up', lasts'⟩ := up.run lasts moves
  refine ⟨fun act earlier t k later called => sound.toFit.relays_perform called,
    fun x a change there => sound.toFit.overhear_prosumer there change,
    fun act => (up'.undergo act).queue, fun e result e' handled => consult_of_handled handled, ?_⟩
  intro x a change m ahead behind there back here queue turn
  constructor
  · obtain ⟨up'', lasts''⟩ := up'.run lasts' [m]
    exact IsUp.returns up'' lasts'' queue turn back
  · intro once
    have manned := fresh.manned_after
      (s.acts moves ++ (s.run moves).acts (m :: there ++ .delivery :: back))
    rw [Hub.after_append, ← hub] at manned
    rw [hub_run]
    exact sound.tells_after here once manned change

/-- A third client asks for a context. -/
def knocking : Event :=
  { kind := .createContext, sender := .interaction, target := .hub, src := 3, dst := .unassigned,
    payload := .empty }

/-- While a third client waits for its turn, the source in a sharing session asks for its producer
to be started. It is told that it has been when the client has been served and the media channel has
been asked. The sink has asked for its consumer to be started, and its teardown begins before the
answer comes: it is not told. -/
theorem media_status_returns_in_sharing : ∃ source sink k,
    (loopback.run (sharing ++ [.submit knocking])).hub.agent? 1 3 = some source ∧
    ((loopback.run (sharing ++ [.submit knocking])).move
      (.act (.news 1 3 (.prosumer .start)))).queue
        = [.request knocking, .post (source.mediaRequest 1 .start)] ∧
    calls (((loopback.run (sharing ++ [.submit knocking])).run
      [.act (.news 1 3 (.prosumer .start)), .delivery, .delivery]).hub.perform
        (.event (source.mediaReply 1 .start))).effects = [(k, .media .start)] ∧
    (loopback.run (sharing ++ [.submit knocking])).hub.agent? 1 2 = some sink ∧
    calls (((loopback.run (sharing ++ [.submit knocking])).run
      (.act (.news 1 2 (.prosumer .start)) :: .delivery :: .delivery
        :: (Act.parting.take 2).map .act)).hub.perform
        (.event (sink.mediaReply 1 .start))).effects = [] := by
  obtain ⟨source, here, isThree⟩ : ∃ a,
      (loopback.run (sharing ++ [.submit knocking])).hub.agent? 1 3 = some a ∧ a.id = 3 :=
    ⟨_, rfl, rfl⟩
  obtain ⟨sink, beside, isTwo⟩ : ∃ a,
      (loopback.run (sharing ++ [.submit knocking])).hub.agent? 1 2 = some a ∧ a.id = 2 :=
    ⟨_, rfl, rfl⟩
  obtain ⟨-, unasked, queued, -, returns⟩ := media_status_returns isNew_loopback.up
    isNew_loopback.fresh List.not_mem_nil (sharing ++ [.submit knocking]) (by decide)
  -- both requests stand behind that of the third client
  have asks : ∀ {a : Agent}, (loopback.run (sharing ++ [.submit knocking])).hub.agent? 1 a.id
      = some a → ((loopback.run (sharing ++ [.submit knocking])).move
        (.act (.news 1 a.id (.prosumer .start)))).queue
          = [.request knocking] ++ .post (a.mediaRequest 1 .start) :: [] := by
    intro a found
    rw [queued, unasked 1 a .start found]
    rfl
  have ofSource := returns 1 source .start _ _ _ [.delivery] [] (isThree ▸ here)
    (asks (isThree ▸ here)) rfl
  have ofSink := returns 1 sink .start _ _ _ [.delivery] ((Act.parting.take 2).map .act)
    (isTwo ▸ beside) (asks (isTwo ▸ beside)) rfl
  obtain ⟨k, _, _, told⟩ := (ofSource.2 (by rw [isThree]; decide)).told _
    (by rw [isThree]; rfl) rfl
  have untold := (ofSink.2 (by rw [isTwo]; decide)).untold (by
    rw [isTwo]
    rintro b ⟨⟩
    rfl)
  rw [isThree] at told
  rw [isTwo] at untold
  have queue := asks (isThree ▸ here)
  rw [isThree] at queue
  exact ⟨source, sink, k, here, queue, told, beside, untold⟩

end Service

end CastHub
