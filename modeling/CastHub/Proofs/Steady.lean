import CastHub.Client.Request
import CastHub.Proofs.LoopbackHub
import CastHub.Proofs.Queue
/-!
# Services with loopback sessions

A service around a hub with loopback sessions, and with a loopback media channel, owes nobody
anything: whoever is doomed has its farewell on the way, once, and nobody else has
(`Service.Steady`). This takes that no live number is met again. Here is what the hub of such a
service may be told, and what a client's request does when its turn has come
(`Service.Steady.deliver_request`).

While a service works, its population takes steps, and its clients hear of whoever leaves in the
order in which they do (`Service.Leads`).
-/

namespace CastHub

open Population (gone)

/-- The event of an envelope that nobody waits for. -/
def Envelope.post? : Envelope → Option Event
  | .post e => some e
  | _ => none

/-- What stands in the queue of a service with loopback sessions: what its parts have to say to each
other, and what clients ask for. -/
inductive Envelope.IsUsual : Envelope → Prop
  | post (e : Event) (routine : e.IsRoutine) : IsUsual (.post e)
  | request (client : Id) (request : Request) (e : Event)
      (asks : request.toEvent client = .ok e) : IsUsual (.request e)

/-- What clients are told about whoever is gone. -/
def noticesIn (events : List Event) : List Payload :=
  events.filterMap fun e => if e.kind = .noticeDestroyed then some e.payload else none

@[simp] theorem noticesIn_append (events more : List Event) :
    noticesIn (events ++ more) = noticesIn events ++ noticesIn more := List.filterMap_append

/-- The notices among several effects are those that are sent on their way. -/
theorem noticesIn_posts (effects : List Effect) :
    noticesIn (posts effects) = noticesAmong effects := by
  unfold noticesIn posts noticesAmong
  rw [List.filterMap_filterMap]
  congr 1
  funext effect
  cases effect <;> rfl

/-- A client's request makes nobody leave. -/
theorem Request.unmakes?_of_toEvent {request : Request} {client : Id} {e : Event}
    (asks : request.toEvent client = .ok e) : (Act.event e).unmakes? = none := by
  obtain ⟨notAgent, notChannel⟩ := Request.kind_of_toEvent asks
  rw [Hub.unmakes?_event, if_neg (not_or.2 ⟨notChannel, notAgent⟩)]

namespace Service

/-- The events in the queue that nobody waits for. -/
def posted (s : Service) : List Event := s.queue.filterMap Envelope.post?

/-! ## Going on -/

/-- A service goes on with a hub, and with more in its queue. -/
structure Continues (s : Service) (hub : Hub) (more : List Envelope) (s' : Service) : Prop where
  up : s'.IsUp
  hub : s'.hub = hub
  queue : s'.queue = s.queue ++ more

theorem IsUp.rests {s : Service} (up : s.IsUp) : s.Continues s.hub [] s :=
  ⟨up, rfl, (List.append_nil _).symm⟩

theorem Continues.trans {a b c : Service} {hub hub' : Hub} {more others : List Envelope}
    (h : a.Continues hub more b) (h' : b.Continues hub' others c) :
    a.Continues hub' (more ++ others) c where
  up := h'.up
  hub := h'.hub
  queue := by rw [h'.queue, h.queue, List.append_assoc]

/-- More events are posted. -/
theorem Continues.posted {s s' : Service} {hub : Hub} {events : List Event}
    (h : s.Continues hub (events.map .post) s') : s'.posted = s.posted ++ events := by
  have all : (events.map Envelope.post).filterMap Envelope.post? = events := by
    rw [List.filterMap_map]
    exact List.filterMap_some
  unfold Service.posted
  rw [h.queue, List.filterMap_append, all]

variable {s : Service}

theorem IsUp.record (up : s.IsUp) (e : Event) : s.Continues s.hub [] (s.record e) :=
  ⟨⟨up.isOpen, up.channel⟩, rfl, (List.append_nil _).symm⟩

theorem IsUp.send (up : s.IsUp) (envelope : Envelope) :
    s.Continues s.hub [envelope] (s.send envelope) := by
  have sent : s.send envelope = { s with queue := s.queue ++ [envelope] } := if_pos up.isOpen
  rw [sent]
  exact ⟨⟨up.isOpen, up.channel⟩, rfl, rfl⟩

theorem IsUp.post (up : s.IsUp) (e : Event) : s.Continues s.hub [.post e] (s.post e) :=
  (up.record e).trans ((up.record e).up.send (.post e))

theorem IsUp.submit (up : s.IsUp) (e : Event) : s.Continues s.hub [.request e] (s.submit e) :=
  (up.record e).trans ((up.record e).up.send (.request e))

theorem IsUp.perform (up : s.IsUp) (effect : Effect) :
    s.Continues s.hub (effect.post?.toList.map .post) (s.perform effect) := by
  cases effect with
  | post e => exact up.post e
  | call t c => exact up.rests
  | resetAudio => exact up.rests

theorem IsUp.performAll (up : s.IsUp) (effects : List Effect) :
    s.Continues s.hub ((posts effects).map .post) (effects.foldl Service.perform s) := by
  induction effects generalizing s with
  | nil => exact up.rests
  | cons effect rest ih =>
    have first := up.perform effect
    have later := ih first.up
    rw [first.hub] at later
    have split : posts (effect :: rest) = effect.post?.toList ++ posts rest := by
      unfold posts
      rw [List.filterMap_cons]
      cases effect.post? <;> rfl
    rw [split, List.map_append]
    exact first.trans later

/-- A service goes on with what has happened to its hub. -/
theorem IsUp.undergo (up : s.IsUp) (act : Act) :
    s.Continues (s.hub.perform act).hub ((posts (s.hub.perform act).effects).map .post)
      (s.undergo act) := by
  have up' : IsUp { s with hub := (s.hub.perform act).hub } := ⟨up.isOpen, up.channel⟩
  obtain ⟨still, hub, queue⟩ := up'.performAll (s.hub.perform act).effects
  exact ⟨still, hub, queue⟩

/-- A loopback that is asked remains a loopback. -/
theorem IsUp.setEndpoint (up : s.IsUp) {e : Event} {endpoint : Endpoint}
    (there : s.endpoint? e.target = some endpoint) :
    s.Continues s.hub [] (s.setEndpoint e.target (endpoint.ask e).2) := by
  obtain ⟨channel, own⟩ := up.channel
  exact ⟨⟨up.isOpen, (s.proceeds_setEndpoint there).channel own⟩, rfl, (List.append_nil _).symm⟩

theorem IsUp.ask (up : s.IsUp) (e : Event) : s.Continues s.hub [] (s.ask e).2 := by
  have recorded := up.record e
  unfold Service.ask
  simp only
  split
  · exact recorded
  · rename_i endpoint there
    have asked := recorded.trans (recorded.up.setEndpoint there)
    split
    · exact asked
    · exact asked.trans (asked.up.record _)

/-! ## Nothing is owed -/

/-- A service with loopback sessions at work. Whoever is `due` bids farewell by an event that has
been taken from the queue, and is not delivered yet. -/
structure Steady (s : Service) (due : List Farewell) : Prop where
  up : s.IsUp
  sound : s.hub.Sound
  staffed : s.hub.Staffed
  prompt : s.hub.population.Prompt
  usual : ∀ envelope ∈ s.queue, envelope.IsUsual
  /-- Whoever is doomed has its farewell on the way. -/
  owes : s.hub.population.Owes (due ++ farewells s.posted)

/-- What happens in a service while events are taken from its queue: the population takes steps that
release no context by force, and the notices that are `taken` and those that are left are the old
ones and those about whoever has left, in that order. -/
structure Leads (s : Service) (cs : List Change) (taken : List Event) (s' : Service) : Prop where
  run : Population.Run s.hub.population cs s'.hub.population
  kept : ∀ x, .released x ∉ cs
  said : noticesIn s.posted ++ (gone cs).map partingOf = noticesIn taken ++ noticesIn s'.posted

theorem Leads.refl (s : Service) : s.Leads [] [] s where
  run := .nil
  kept := by rintro _ ⟨⟩
  said := List.append_nil _

theorem Leads.trans {a b c : Service} {cs ds : List Change} {first second : List Event}
    (h : a.Leads cs first b) (h' : b.Leads ds second c) :
    a.Leads (cs ++ ds) (first ++ second) c where
  run := h.run.append h'.run
  kept x mem := (List.mem_append.1 mem).elim (h.kept x) (h'.kept x)
  said := by
    calc noticesIn a.posted ++ (gone (cs ++ ds)).map partingOf
        _ = (noticesIn a.posted ++ (gone cs).map partingOf) ++ (gone ds).map partingOf := by
          rw [Population.gone_append, List.map_append, List.append_assoc]
        _ = noticesIn first ++ (noticesIn b.posted ++ (gone ds).map partingOf) := by
          rw [h.said, List.append_assoc]
        _ = noticesIn (first ++ second) ++ noticesIn c.posted := by
          rw [h'.said, noticesIn_append, List.append_assoc]

/-- A service works while events are taken from its queue and numbers are handed out, and owes
nobody anything then. -/
def Works (s : Service) (ids : List Id) (taken : List Event) (due : List Farewell)
    (s' : Service) : Prop :=
  ∃ cs, s.Leads cs taken s' ∧ Population.minted cs = ids ∧ s'.Steady due

theorem Works.trans {a b c : Service} {ids more : List Id} {first second : List Event}
    {due due' : List Farewell} (h : a.Works ids first due b) (h' : b.Works more second due' c) :
    a.Works (ids ++ more) (first ++ second) due' c := by
  obtain ⟨cs, leads, rfl, _⟩ := h
  obtain ⟨ds, leads', rfl, steady⟩ := h'
  exact ⟨cs ++ ds, leads.trans leads', Population.minted_append cs ds, steady⟩

theorem Works.steady {s' : Service} {ids : List Id} {taken : List Event} {due : List Farewell}
    (h : s.Works ids taken due s') : s'.Steady due := by
  obtain ⟨_, _, _, steady⟩ := h
  exact steady

variable {due : List Farewell}

theorem Steady.rests (h : s.Steady due) : s.Works [] [] due s := ⟨[], .refl s, rfl, h⟩

/-- **What happens to the hub leaves a service owing nothing**, if those leave who are due, and
nobody else. -/
theorem Steady.undergo {paid : List Farewell} (h : s.Steady (paid ++ due)) {act : Act}
    (holds : act.releases = false) (spares : (s.hub.moment act).Spares)
    (leave : (s.hub.moment act).removal?.toList = paid.map fun f => (f.context, f.agent))
    (discreet : act.isPrivate = false)
    (serves : s.hub.Serves (s.hub.perform act).effects (s.hub.perform act).hub) :
    s.Works (s.hub.moment act).minted [] due (s.undergo act) := by
  obtain ⟨cs, does⟩ := h.sound.toFit.perform act
  have goesOn := h.up.undergo act
  have unused := does.spares h.sound.toFit spares
  have kept := does.calm.kept holds
  have paidOff : (s.hub.perform act).hub.population.Owes
      ((due ++ farewells s.posted) ++ farewells (posts (s.hub.perform act).effects)) := by
    have owes := h.owes
    rw [List.append_assoc] at owes
    exact owes.run h.sound.sound does.run unused kept (does.removed.trans leave) serves.owed
      serves.bid serves.once
  refine ⟨cs, ⟨?_, kept, ?_⟩, does.minted.symm, ?_⟩
  · rw [goesOn.hub]
    exact does.run
  · rw [goesOn.posted, noticesIn_append, noticesIn_posts, does.said ⟨serves.discreet, discreet⟩]
    rfl
  · constructor
    · exact goesOn.up
    · rw [goesOn.hub]
      exact h.sound.perform spares
    · rw [goesOn.hub]
      exact serves.staffed
    · rw [goesOn.hub]
      exact h.sound.sound.prompt_run h.prompt does.run unused
    · intro envelope mem
      rw [goesOn.queue] at mem
      rcases List.mem_append.1 mem with before | now
      · exact h.usual envelope before
      · obtain ⟨e, posts, rfl⟩ := List.mem_map.1 now
        exact .post e (serves.routine e posts)
    · rw [goesOn.hub, goesOn.posted, farewells_append, ← List.append_assoc]
      exact paidOff

/-- The same if the act makes nobody leave. -/
theorem Steady.undergo_tame (h : s.Steady due) {act : Act} (holds : act.releases = false)
    (spares : (s.hub.moment act).Spares) (tame : act.unmakes? = none)
    (discreet : act.isPrivate = false)
    (serves : s.hub.Serves (s.hub.perform act).effects (s.hub.perform act).hub) :
    s.Works (s.hub.moment act).minted [] due (s.undergo act) := by
  have nobodyDue : s.Steady ([] ++ due) := h
  refine nobodyDue.undergo holds spares ?_ discreet serves
  unfold Moment.removal?
  rw [show (s.hub.moment act).act = act from rfl, tame]
  rfl

/-- A service goes on, and its hub has done nothing. What is put in the queue says nothing of
whoever is gone; who bids farewell by it is who has been due, and is not any more. -/
theorem Steady.goOn {due' : List Farewell} {s' : Service} {more : List Envelope}
    (h : s.Steady due) (usual : ∀ envelope ∈ more, envelope.IsUsual)
    (unsaid : noticesIn (more.filterMap Envelope.post?) = [])
    (same : (due' ++ farewells (s.posted ++ more.filterMap Envelope.post?)).Perm
      (due ++ farewells s.posted))
    (goesOn : s.Continues s.hub more s') : s.Works [] [] due' s' := by
  have posted : s'.posted = s.posted ++ more.filterMap Envelope.post? := by
    unfold Service.posted
    rw [goesOn.queue, List.filterMap_append]
  refine ⟨[], ⟨?_, by rintro _ ⟨⟩, ?_⟩, rfl, goesOn.up, ?_, ?_, ?_, ?_, ?_⟩
  · rw [goesOn.hub]
    exact .nil
  · rw [posted, noticesIn_append, unsaid]
    rfl
  · rw [goesOn.hub]
    exact h.sound
  · rw [goesOn.hub]
    exact h.staffed
  · rw [goesOn.hub]
    exact h.prompt
  · intro envelope mem
    rw [goesOn.queue] at mem
    exact (List.mem_append.1 mem).elim (h.usual envelope) (usual envelope)
  · rw [goesOn.hub, posted]
    exact h.owes.perm same

/-- A service goes on with the queue that it has. -/
theorem Steady.goOn_nil {s' : Service} (h : s.Steady due) (goesOn : s.Continues s.hub [] s') :
    s.Works [] [] due s' := by
  refine h.goOn (by rintro _ ⟨⟩) rfl ?_ goesOn
  rw [List.filterMap_nil, List.append_nil]

/-- A reply is posted. It bids farewell for whoever is due. -/
theorem Steady.reply {e : Event} (h : s.Steady e.farewell?.toList) (routine : e.IsRoutine)
    (other : e.kind ≠ .noticeDestroyed) : s.Works [] [] [] (s.post e) := by
  have usual : ∀ envelope ∈ [Envelope.post e], envelope.IsUsual := by
    intro envelope mem
    obtain rfl := List.mem_singleton.1 mem
    exact .post e routine
  have unsaid : noticesIn [e] = [] := List.filterMap_cons_none (if_neg other)
  have bids : farewells [e] = e.farewell?.toList := by
    unfold farewells
    rw [List.filterMap_cons]
    cases e.farewell? <;> rfl
  refine h.goOn usual unsaid ?_ (h.up.post e)
  show (farewells (s.posted ++ [e])).Perm _
  rw [farewells_append, bids]
  exact List.perm_append_comm

/-! ## The hub at work -/

/-- Somebody comes who was waited for. -/
theorem Steady.follows (h : s.Steady due) {act : Act} {t : HubTurn}
    (comes : s.hub.perform act = t.done) (spares : (s.hub.moment act).Spares)
    (waited : act = .built ∨ ∃ answer, act = .answered answer)
    (made : s.hub.built = some t ∨ ∃ answer, s.hub.answered answer = some t) :
    (s.adopt t).Steady due := by
  obtain ⟨engages, silent⟩ : s.hub.Engages t.hub ∧ Hub.IsSilent t.effects := by
    rcases made with built | ⟨answer, answered⟩
    · exact h.sound.engages_built h.staffed built
    · exact h.sound.engages_answered h.staffed answered
  have serves := engages.serves silent
  rw [← undergo_eq_adopt comes]
  have becomes : s.hub.Serves (s.hub.perform act).effects (s.hub.perform act).hub := by
    rw [comes]
    exact serves
  rcases waited with rfl | ⟨answer, rfl⟩
  · exact (h.undergo_tame rfl spares rfl rfl becomes).steady
  · exact (h.undergo_tame rfl spares rfl rfl becomes).steady

/-- The media channel is asked, if an operation waits for it. -/
theorem Steady.awaitChannel {t : HubTurn} (adopted : (s.adopt t).Steady due)
    (spares : ∀ m ∈ t.hub.journal (t.answering s.answerTo), m.Spares) :
    (s.awaitChannel t).1.Steady due := by
  obtain ⟨hub, endpoints⟩ := s.adopt_keeps t
  unfold Service.awaitChannel
  simp only
  split
  · rename_i request asks
    have asked := (adopted.goOn_nil (adopted.up.ask request)).steady
    obtain ⟨answer, same⟩ := (s.adopt t).ask_eq request
    have isAnswer : (s.adopt t).answerTo request = s.answerTo request := by
      unfold answerTo endpoint?
      rw [endpoints]
    split
    · exact asked
    · rename_i next answered
      refine asked.follows (Hub.perform_answered answered) (spares _ ?_) (.inr ⟨_, rfl⟩)
        (.inr ⟨_, answered⟩)
      unfold HubTurn.answering
      rw [asks, same, hub, answer, isAnswer]
      exact List.mem_singleton_self _
  · exact adopted

/-- **A service that consults its hub about an event that makes nobody leave owes nothing
afterwards.** -/
theorem Steady.consult (h : s.Steady due) {e : Event} (tame : (Act.event e).unmakes? = none)
    (spares : ∀ m ∈ s.hub.journal (s.hub.doings s.answerTo e), m.Spares) :
    (s.consult e).2.Steady due := by
  have handles : s.Works _ [] due (s.undergo (.event e)) := h.undergo_tame rfl
    (spares _ (List.mem_cons_self ..)) tame rfl (h.sound.serves_handle h.staffed e)
  have adopted : (s.adopt (s.hub.handle e)).Steady due := by
    rw [← undergo_event]
    exact handles.steady
  have later : ∀ m ∈ (s.hub.handle e).hub.journal ((s.hub.handle e).following s.answerTo),
      m.Spares := fun m mem => spares m (List.mem_cons_of_mem _ mem)
  obtain ⟨hub, endpoints⟩ := s.adopt_keeps (s.hub.handle e)
  have answers : (s.adopt (s.hub.handle e)).answerTo = s.answerTo := by
    funext e
    unfold answerTo endpoint?
    rw [endpoints]
  rw [consult_snd]
  unfold Service.await
  unfold HubTurn.following at later
  split
  · rename_i className waits
    rw [waits] at later
    simp only at later ⊢
    split
    · exact adopted
    · rename_i next built
      rw [hub] at built
      rw [built] at later
      have first : ((s.adopt (s.hub.handle e)).adopt next).Steady due :=
        adopted.follows (hub ▸ Hub.perform_built built) (hub ▸ later _ (List.mem_cons_self ..))
          (.inl rfl) (.inl (hub ▸ built))
      refine Steady.awaitChannel first fun m mem => later m (List.mem_cons_of_mem _ ?_)
      rw [Hub.perform_built built]
      rw [answers] at mem
      exact mem
  · rename_i other
    refine Steady.awaitChannel adopted ?_
    split at later
    · rename_i className waits
      exact absurd waits (other className)
    · exact later

/-! ## Requests -/

/-- A client's request waits for its turn. -/
theorem Steady.submit (h : s.Steady due) {client : Id} {request : Request} {e : Event}
    (asks : request.toEvent client = .ok e) : s.Works [] [] due (s.submit e) := by
  have usual : ∀ envelope ∈ [Envelope.request e], envelope.IsUsual := by
    intro envelope mem
    obtain rfl := List.mem_singleton.1 mem
    exact .request client request e asks
  refine h.goOn usual rfl ?_ (h.up.submit e)
  show (due ++ farewells (s.posted ++ [])).Perm _
  rw [List.append_nil]

/-- **A client's request leaves a service owing nothing** when its turn has come, whatever the
client asks for. -/
theorem Steady.deliver_request (h : s.Steady due) {client : Id} {request : Request} {e : Event}
    (asks : request.toEvent client = .ok e)
    (spares : ∀ m ∈ s.hub.journal (s.hub.doings s.answerTo e), m.Spares) :
    (s.deliver (.request e)).2.Steady due :=
  h.consult (Request.unmakes?_of_toEvent asks) spares

end Service

end CastHub
