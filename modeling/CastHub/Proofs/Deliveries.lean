import CastHub.Proofs.Steady
/-!
# Services come to rest

In a service with loopback sessions every event that is delivered weighs more than what is posted on
its account (`Service.Steady.dispatch`), so if no client waits for anything, the queue is empty
after finitely many deliveries (`Service.Steady.comes_to_rest`). Whatever clients ask for, and
whenever it is their turn, the service owes nothing (`Service.Steady.run`); so when its queue is
empty nobody is doomed, and nobody is to be destroyed (`Service.Steady.alive`).
-/

namespace CastHub

/-- A farewell that goes to the media channel is a sink's. -/
theorem Event.farewell?_cases {e : Event} {f : Farewell} (bids : e.farewell? = some f) :
    e.target = .hub ∨ (e.target = .mediaChannel ∧ e.kind = .destroyChannel ∧
      e.agent? = some f.agent ∧ f = ⟨e.src, f.agent, .sink⟩) := by
  unfold farewell? at bids
  split at bids
  · rename_i told kind
    obtain ⟨id, named, rfl⟩ := Option.map_eq_some_iff.1 bids
    exact .inr ⟨told, kind, named, rfl⟩
  · exact .inl ‹_›
  · exact .inl ‹_›
  · cases bids

theorem Event.weight_pos (e : Event) : 0 < e.weight := by
  unfold weight
  split <;> omega

/-- An event that asks for nothing new is given no number. -/
theorem Hub.minted_handle {hub : Hub} {e : Event} (notAgent : e.kind ≠ .createAgent)
    (notContext : e.kind ≠ .createContext) (notOwn : e.kind ≠ .contextCreateAgent) :
    (hub.moment (.event e)).minted = [] :=
  if_pos (ids_handle notAgent notContext notOwn).symm

/-- Where no number is handed out, none is met again. -/
theorem Moment.spares_of_minted {m : Moment} (none : m.minted = []) : m.Spares := by
  unfold Moment.Spares
  rw [none]
  rintro _ ⟨⟩

namespace Service

variable {s : Service}

/-! ## Deliveries -/

/-- What it comes to when an event that was posted is delivered: no number is handed out, nobody
comes, no living sink goes, more is posted but not asked for, and the queue gets lighter than it was
before the event was taken from it. -/
structure Delivers (s : Service) (e : Event) (s' : Service) : Prop where
  works : s.Works [] [] [] s'
  dwindles : s.hub.population.Dwindles s'.hub.population
  more : ∃ events : List Event, s'.queue = s.queue ++ events.map .post
  lighter : load s'.posted < e.weight + load s.posted

/-- The next event is taken from the queue. -/
theorem Steady.take {e : Event} {rest : List Envelope} (h : s.Steady [])
    (next : s.queue = .post e :: rest) :
    s.Works [] [e] e.farewell?.toList { s with queue := rest } := by
  have posted : s.posted = e :: Service.posted { s with queue := rest } := by
    unfold Service.posted
    rw [next]
    rfl
  have bids : farewells s.posted
      = e.farewell?.toList ++ farewells (Service.posted { s with queue := rest }) := by
    rw [posted]
    unfold farewells
    rw [List.filterMap_cons]
    cases e.farewell? <;> rfl
  refine ⟨[], ⟨.nil, by rintro _ ⟨⟩, ?_⟩, rfl, ⟨h.up.isOpen, h.up.channel⟩, h.sound, h.staffed,
    h.prompt, ?_, bids ▸ h.owes⟩
  · rw [posted]
    exact (List.append_nil _).trans (noticesIn_append [e] _)
  · intro envelope mem
    exact h.usual envelope (next ▸ List.mem_cons_of_mem _ mem)

/-- Nothing comes of an event, and nobody bade farewell by it. -/
theorem Steady.delivers_nothing {e : Event} {s' : Service} (h : s.Steady e.farewell?.toList)
    (nobody : e.farewell? = none) (goesOn : s.Continues s.hub [] s') : s.Delivers e s' := by
  rw [nobody] at h
  have pos := e.weight_pos
  have posted : s'.posted = s.posted := by
    unfold Service.posted
    rw [goesOn.queue, List.append_nil]
  refine ⟨h.goOn_nil goesOn, ?_, ⟨[], goesOn.queue⟩, ?_⟩
  · rw [goesOn.hub]
    exact .of_rosters rfl
  · rw [posted]
    omega

/-- A lighter event comes of an event. Whoever bade farewell by the one does so by the other. -/
theorem Steady.delivers_reply {e e' : Event} (h : s.Steady e.farewell?.toList)
    (routine : e'.IsRoutine) (other : e'.kind ≠ .noticeDestroyed)
    (same : e'.farewell? = e.farewell?) (lighter : e'.weight < e.weight) :
    s.Delivers e (s.post e') := by
  have goesOn := h.up.post e'
  have posted := @Continues.posted s _ s.hub [e'] goesOn
  rw [← same] at h
  refine ⟨h.reply routine other, ?_, ⟨[e'], goesOn.queue⟩, ?_⟩
  · rw [goesOn.hub]
    exact .of_rosters rfl
  · rw [posted, load_append, load_cons, load_nil]
    omega

/-- A client is told something. -/
theorem Steady.dispatch_notice {e : Event} (h : s.Steady e.farewell?.toList)
    (told : e.target = .interaction)
    (kind : e.kind = .noticeDestroyed ∨ e.kind = .noticeError ∨ e.kind = .noticeStepDone) :
    s.Delivers e (s.dispatch e) := by
  have nobody : e.farewell? = none := by simp only [Event.farewell?, told]
  have silent : MediaChannel.hear e = none := by
    unfold MediaChannel.hear
    rcases kind with kind | kind | kind <;> rw [kind] <;> cases e.agent? <;> rfl
  have delivers : s.dispatch e = (s.endpoint? .interaction).elim s (s.tell · e) := by
    simp only [Service.dispatch, told]
  apply h.delivers_nothing nobody
  rw [delivers]
  cases s.endpoint? .interaction with
  | none => exact h.up.rests
  | some endpoint =>
    show s.Continues s.hub [] (s.tell endpoint e)
    cases endpoint with
    | loopback channel =>
      show s.Continues s.hub [] ((MediaChannel.hear e).elim s s.post)
      rw [silent]
      exact h.up.rests
    | logger => exact h.up.rests
    | recorder number plan => exact ⟨⟨h.up.isOpen, h.up.channel⟩, rfl, (List.append_nil _).symm⟩

/-- What the media channel makes of an event that it is sent. -/
theorem IsUp.dispatch (up : s.IsUp) {e : Event} (told : e.target = .mediaChannel) :
    s.dispatch e = (MediaChannel.hear e).elim s s.post := by
  obtain ⟨channel, own⟩ := up.channel
  have delivers : s.dispatch e = (s.endpoint? .mediaChannel).elim s (s.tell · e) := by
    simp only [Service.dispatch, told]
  rw [delivers, own]
  rfl

/-- The media channel is asked for a change. -/
theorem Steady.dispatch_change {e : Event} (h : s.Steady e.farewell?.toList)
    (told : e.target = .mediaChannel) {role : Role} {change : MediaChange}
    (kind : e.kind = .changeMedia role change) : s.Delivers e (s.dispatch e) := by
  have nobody : e.farewell? = none := by simp only [Event.farewell?, told, kind]
  have weight : e.weight = 2 := by simp only [Event.weight, kind]
  rw [h.up.dispatch told]
  cases named : e.agent? with
  | none =>
    have silent : MediaChannel.hear e = none := by simp only [MediaChannel.hear, named]
    rw [silent]
    exact h.delivers_nothing nobody h.up.rests
  | some agent =>
    rw [MediaChannel.hear_changeMedia named kind]
    apply h.delivers_reply (.changed rfl change rfl)
    · exact EventKind.noConfusion
    · exact nobody.symm
    · rw [weight]
      exact Nat.one_lt_two

/-- The media channel is told that a sink bids farewell, and passes it on to the hub. -/
theorem Steady.dispatch_destroyChannel {e : Event} {f : Farewell}
    (h : s.Steady e.farewell?.toList) (told : e.target = .mediaChannel)
    (kind : e.kind = .destroyChannel) (named : e.agent? = some f.agent)
    (bids : e.farewell? = some f) (isIt : f = ⟨e.src, f.agent, .sink⟩) :
    s.Delivers e (s.dispatch e) := by
  have weight : e.weight = 3 := by simp only [Event.weight, kind]
  have heard : MediaChannel.hear e
      = some (MediaChannel.answer e .channelDestroyed e.payload) := by
    simp only [MediaChannel.hear, named, kind]
  have same : (MediaChannel.answer e .channelDestroyed e.payload).farewell? = some f := by
    show e.agent?.map (⟨e.src, ·, .sink⟩) = some f
    rw [named, isIt]
    rfl
  rw [h.up.dispatch told, heard]
  apply h.delivers_reply (.farewell f same)
  · exact EventKind.noConfusion
  · exact same.trans bids.symm
  · rw [weight]
    show 2 < 3
    omega

/-- An event goes to the hub, which waits for nobody. -/
theorem dispatch_of_handled {e e' : Event} {result : Except Fault Unit} (told : e.target = .hub)
    (handled : (s.hub.handle e).outcome = .handled result e') :
    s.dispatch e = s.undergo (.event e) := by
  have delivers : s.dispatch e = (s.consult e).2 := by simp only [Service.dispatch, told]
  exact delivers.trans (consult_of_handled handled)

/-- An agent is told of a change of its media object. -/
theorem Steady.dispatch_changed {e : Event} (h : s.Steady e.farewell?.toList)
    (told : e.target = .hub) {change : MediaChange} (kind : e.kind = .prosumerState change) :
    s.Delivers e (s.dispatch e) := by
  have nobody : e.farewell? = none := by simp only [Event.farewell?, told, kind]
  have other : ∀ {k}, EventKind.prosumerState change ≠ k → e.kind ≠ k := by
    intro k differs
    rwa [kind]
  have notAgent := other (k := .createAgent) EventKind.noConfusion
  have notOwn := other (k := .contextCreateAgent) EventKind.noConfusion
  have tame : (Act.event e).unmakes? = none := by
    rw [Hub.unmakes?_event,
      if_neg (not_or.2 ⟨other EventKind.noConfusion, other EventKind.noConfusion⟩)]
  have none := @Hub.minted_handle s.hub e notAgent (other EventKind.noConfusion) notOwn
  obtain ⟨result, e', handled⟩ := @Hub.handled_handle s.hub e notAgent notOwn
  obtain ⟨unchanged, silent⟩ := h.sound.handle_changed h.staffed kind
  have goesOn := h.up.undergo (.event e)
  have pos := e.weight_pos
  rw [nobody] at h
  have works : s.Works _ [] [] (s.undergo (.event e)) := h.undergo_tame rfl
    (Moment.spares_of_minted none) tame rfl (h.sound.serves_handle h.staffed e)
  rw [none] at works
  rw [dispatch_of_handled told handled]
  refine ⟨works, ?_, ⟨_, goesOn.queue⟩, ?_⟩
  · rw [goesOn.hub]
    exact .of_rosters unchanged
  · rw [goesOn.posted, show posts (s.hub.perform (.event e)).effects = [] from silent,
      List.append_nil]
    omega

/-- Somebody's farewell comes to the hub, and is the end of it. -/
theorem Steady.dispatch_farewell {e : Event} {f : Farewell} (h : s.Steady e.farewell?.toList)
    (told : e.target = .hub) (bids : e.farewell? = some f) : s.Delivers e (s.dispatch e) := by
  have others : e.kind ≠ .createAgent ∧ e.kind ≠ .createContext ∧ e.kind ≠ .contextCreateAgent := by
    obtain ⟨_, _, ⟨kind, _⟩ | ⟨kind, _⟩⟩ := Event.farewell?_of_hub bids told
    · rw [kind]
      exact ⟨EventKind.noConfusion, EventKind.noConfusion, EventKind.noConfusion⟩
    · rw [kind]
      exact ⟨EventKind.noConfusion, EventKind.noConfusion, EventKind.noConfusion⟩
  obtain ⟨notAgent, notContext, notOwn⟩ := others
  rw [bids] at h
  have none := @Hub.minted_handle s.hub e notAgent notContext notOwn
  have dooms : s.hub.population.Dooms f := (h.owes.dooms f).1 (List.mem_cons_self ..)
  obtain ⟨result, e', handled⟩ := @Hub.handled_handle s.hub e notAgent notOwn
  obtain ⟨parts, removed, light⟩ := h.sound.ends_of_farewell h.staffed bids told dooms
  have goesOn := h.up.undergo (.event e)
  have pos := e.weight_pos
  have due : s.Steady ([f] ++ []) := h
  have works : s.Works _ [] [] (s.undergo (.event e)) := due.undergo rfl
    (Moment.spares_of_minted none) (by rw [removed]; rfl) rfl
    (h.sound.serves_handle h.staffed e)
  rw [none] at works
  rw [dispatch_of_handled told handled]
  refine ⟨works, ?_, ⟨_, goesOn.queue⟩, ?_⟩
  · rw [goesOn.hub]
    exact parts.dwindles h.sound.sound
  · rw [goesOn.posted, load_append]
    show _ + load (posts (s.hub.handle e).effects) < _
    omega

/-- **A delivery leaves a service owing nothing, and its queue lighter.** -/
theorem Steady.dispatch {e : Event} (h : s.Steady e.farewell?.toList) (routine : e.IsRoutine) :
    s.Delivers e (s.dispatch e) := by
  cases routine with
  | notice told kind => exact h.dispatch_notice told kind
  | change told role change kind => exact h.dispatch_change told kind
  | changed told change kind => exact h.dispatch_changed told kind
  | farewell f bids =>
    rcases Event.farewell?_cases bids with told | ⟨told, kind, named, isIt⟩
    · exact h.dispatch_farewell told bids
    · exact h.dispatch_destroyChannel told kind named bids isIt

/-- The next event is taken from the queue and delivered. -/
theorem Steady.next {e : Event} {rest : List Envelope} (h : s.Steady [])
    (next : s.queue = .post e :: rest) :
    s.Works [] [e] [] s.next.2 ∧ s.hub.population.Dwindles s.next.2.hub.population ∧
      (∃ events : List Event, s.next.2.queue = rest ++ events.map .post) ∧
      load s.next.2.posted < load s.posted := by
  have taken := h.take next
  have routine : e.IsRoutine := by
    have usual := h.usual (.post e) (next ▸ List.mem_cons_self ..)
    cases usual with
    | post _ routine => exact routine
  have delivers : s.next.2 = Service.dispatch { s with queue := rest } e := by
    rw [Service.next, next]
    rfl
  obtain ⟨works, dwindles, more, lighter⟩ := taken.steady.dispatch routine
  rw [delivers]
  refine ⟨taken.trans works, dwindles, more, ?_⟩
  have posted : s.posted = e :: Service.posted { s with queue := rest } := by
    unfold Service.posted
    rw [next]
    rfl
  rw [posted, load_cons]
  exact lighter

/-! ## Histories -/

/-- A service that has been set up with loopback sessions and a loopback media channel, and to which
nothing has happened yet. -/
structure IsNew (s : Service) : Prop where
  up : s.IsUp
  fresh : s.hub.IsFresh
  classes : ∀ ⦃name cls⦄, s.hub.classes.get? name = some cls → cls = Loopback.sessionClass
  idle : s.queue = []

theorem IsNew.steady (new : s.IsNew) : s.Steady [] := by
  have nobody : ∀ {x}, s.hub.population.rosters.get? x = none := by
    intro x
    rw [Hub.get?_rosters, new.fresh.contexts]
    rfl
  have quiet : s.posted = [] := by
    unfold Service.posted
    rw [new.idle]
    rfl
  refine ⟨new.up, new.fresh.sound, ⟨new.classes, ?_, ?_⟩, ?_, ?_, ?_⟩
  · rw [new.fresh.contexts]
    rintro _ _ ⟨⟩
  · rw [new.fresh.creations]
    rintro _ ⟨⟩
  · intro x r held
    rw [nobody] at held
    cases held
  · rw [new.idle]
    rintro _ ⟨⟩
  · rw [quiet]
    refine ⟨List.nodup_nil, fun f => ⟨by rintro ⟨⟩, ?_⟩⟩
    rintro ⟨r, m, held, _⟩
    rw [nobody] at held
    cases held

end Service

/-- What happens to a service when nobody but its clients asks for anything. -/
inductive Move.IsClients : Move → Prop
  | submit (client : Id) (request : Request) (e : Event) (asks : request.toEvent client = .ok e) :
      IsClients (.submit e)
  | delivery : IsClients .delivery

namespace Service

variable {s : Service}

/-- A delivery leaves a service owing nothing, whoever waits for it. -/
theorem Steady.next_of_spares (h : s.Steady [])
    (spares : ∀ m ∈ s.hub.journal (s.happenings .delivery), m.Spares) : s.next.2.Steady [] := by
  cases next : s.queue with
  | nil =>
    have same : s.next.2 = s := by rw [Service.next, next]
    rw [same]
    exact h
  | cons envelope rest =>
    cases h.usual envelope (next ▸ List.mem_cons_self ..) with
    | post e routine => exact (h.next next).1.steady
    | request client request e asks =>
      have taken : Steady { s with queue := rest } [] := by
        have owes := h.owes
        unfold Service.posted at owes
        rw [next] at owes
        refine ⟨⟨h.up.isOpen, h.up.channel⟩, h.sound, h.staffed, h.prompt, ?_, owes⟩
        intro envelope mem
        exact h.usual envelope (next ▸ List.mem_cons_of_mem _ mem)
      have delivers : s.next.2
          = (Service.deliver { s with queue := rest } (.request e)).2 := by
        rw [Service.next, next]
      rw [delivers]
      apply taken.deliver_request asks
      unfold happenings at spares
      rw [next] at spares
      exact spares

/-- **Whatever clients ask for, and whenever it is their turn, a service owes nothing**, as long as
no live number is met again. -/
theorem Steady.run (h : s.Steady []) {moves : List Move} (clients : ∀ m ∈ moves, m.IsClients)
    (spares : ∀ m ∈ s.hub.journal (s.acts moves), m.Spares) : (s.run moves).Steady [] := by
  induction moves generalizing s with
  | nil => exact h
  | cons move rest ih =>
    have all : s.acts (move :: rest) = s.happenings move ++ (s.move move).acts rest := rfl
    rw [all, Hub.journal_append] at spares
    have first : (s.move move).Steady [] := by
      cases clients move (List.mem_cons_self ..) with
      | submit client request e asks => exact (h.submit asks).steady
      | delivery => exact h.next_of_spares fun m mem => spares m (List.mem_append_left _ mem)
    refine ih first (fun m mem => clients m (List.mem_cons_of_mem _ mem)) fun m mem => ?_
    rw [hub_move] at mem
    exact spares m (List.mem_append_right _ mem)

/-- At rest, nobody is doomed, and so nobody is to be destroyed. -/
theorem Steady.alive (h : s.Steady []) (idle : s.queue = []) {x id : Id} {c : Context} {a : Agent}
    (held : s.hub.contexts.get? x = some c) (here : c.agents.get? id = some a) :
    a.destroying = false := by
  have rosters := Hub.roster_of_held held
  refine h.sound.sound.alive h.prompt rosters ?_ (Context.member_of_agent here)
  intro k m there
  rw [Bool.eq_false_iff]
  intro doomed
  have owed := (h.owes.dooms ⟨x, k, m.role⟩).2 ⟨_, m, rosters, there, rfl, doomed⟩
  unfold Service.posted at owed
  rw [idle] at owed
  cases owed

/-! ## Coming to rest -/

/-- The events that are delivered, of those that were posted, when a service is drained. -/
def delivered : Nat → Service → List Event
  | 0, _ => []
  | count + 1, s =>
    (s.queue.head?.bind Envelope.post?).toList ++ delivered count s.next.2

theorem delivered_of_empty (h : s.queue = []) (count : Nat) : s.delivered count = [] := by
  induction count with
  | zero => rfl
  | succ count ih =>
    have same : s.next.2 = s := by rw [Service.next, h]
    unfold delivered
    rw [same, ih, h]
    rfl

/-- Whatever stands in the queue has been posted, and nobody waits for it. -/
def IsUnasked (s : Service) : Prop := ∀ envelope ∈ s.queue, ∃ e, envelope = .post e

/-- Only events are posted on account of events. -/
theorem Steady.unasked_next (h : s.Steady []) (unasked : s.IsUnasked) {e : Event}
    {rest : List Envelope} (next : s.queue = .post e :: rest) : s.next.2.IsUnasked := by
  obtain ⟨_, _, ⟨events, queue⟩, _⟩ := h.next next
  intro envelope mem
  rw [queue] at mem
  rcases List.mem_append.1 mem with before | now
  · exact unasked envelope (next ▸ List.mem_cons_of_mem _ before)
  · obtain ⟨e', _, rfl⟩ := List.mem_map.1 now
    exact ⟨e', rfl⟩

/-- **However many events are delivered, a service owes nothing.** Nobody comes meanwhile, and no
living sink goes. -/
theorem Steady.drain (h : s.Steady []) (unasked : s.IsUnasked) (n : Nat) :
    s.Works [] (s.delivered n) [] (s.drain n) ∧
      s.hub.population.Dwindles (s.drain n).hub.population := by
  induction n generalizing s with
  | zero => exact ⟨h.rests, .of_rosters rfl⟩
  | succ n ih =>
    cases next : s.queue with
    | nil =>
      rw [drain_of_empty next, delivered_of_empty next]
      exact ⟨h.rests, .of_rosters rfl⟩
    | cons envelope rest =>
      obtain ⟨e, rfl⟩ := unasked envelope (next ▸ List.mem_cons_self ..)
      obtain ⟨first, dwindles, _⟩ := h.next next
      obtain ⟨later, dwindles'⟩ := ih first.steady (h.unasked_next unasked next)
      have delivers : s.delivered (n + 1) = e :: s.next.2.delivered n := by
        rw [delivered, next]
        rfl
      rw [drain_succ, delivers]
      exact ⟨first.trans later, dwindles.trans dwindles'⟩

/-- **A service comes to rest** if nobody waits for anything: some time there is nothing left to
deliver. -/
theorem Steady.comes_to_rest (h : s.Steady []) (unasked : s.IsUnasked) :
    ∃ n, (s.drain n).queue = [] := by
  -- every delivery makes the queue lighter
  generalize bound : load s.posted = weight
  induction weight using Nat.strongRecOn generalizing s with
  | ind weight ih =>
    cases next : s.queue with
    | nil => exact ⟨0, next⟩
    | cons envelope rest =>
      obtain ⟨e, rfl⟩ := unasked envelope (next ▸ List.mem_cons_self ..)
      obtain ⟨first, _, _, lighter⟩ := h.next next
      obtain ⟨n, idle⟩ := ih _ (bound ▸ lighter) first.steady (h.unasked_next unasked next) rfl
      refine ⟨n + 1, ?_⟩
      rw [drain_succ]
      exact idle

end Service

end CastHub
