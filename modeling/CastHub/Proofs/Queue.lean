import CastHub.Proofs.Consultation
/-!
# First come, first served

Whatever a service does, it puts what it has to say at the end of its queue (`Service.Proceeds`). So
everything in the queue has its turn: it stands first after as many deliveries as there were
envelopes before it, whatever else happens meanwhile (`Service.run_ahead`).

A request is an envelope like any other. A service that lasts until its turn has come handles it
then (`Service.request_of_lasts`), and one that ends before that leaves it without an answer
(`Service.request_of_ends`).
-/

namespace CastHub

/-- How many envelopes a move takes from the queue. -/
def Move.deliveries : Move → Nat
  | .delivery => 1
  | _ => 0

/-- How many envelopes several moves take from the queue. -/
def deliveries : List Move → Nat
  | [] => 0
  | m :: moves => m.deliveries + deliveries moves

namespace Service

/-! ## Whatever is said goes to the end -/

/-- A service proceeds: it stays open, or closed, its loopback channel stays one, and the queue only
gets longer at its end, if the service is open. -/
structure Proceeds (s s' : Service) : Prop where
  isOpen : s'.isOpen = s.isOpen
  channel : ∀ {c}, s.endpoint? .mediaChannel = some (.loopback c) →
    ∃ c', s'.endpoint? .mediaChannel = some (.loopback c')
  queue : ∃ more, s'.queue = s.queue ++ more ∧ .shutdown ∉ more
  silent : s.isOpen = false → s'.queue = s.queue

/-- Nothing is said, and the endpoints are the same. -/
theorem proceeds_of_same {s s' : Service} (isOpen : s'.isOpen = s.isOpen)
    (endpoints : s'.endpoints = s.endpoints) (queue : s'.queue = s.queue) : s.Proceeds s' where
  isOpen := isOpen
  channel {c} there := by
    unfold endpoint? at there ⊢
    exact ⟨c, endpoints ▸ there⟩
  queue := ⟨[], by rw [queue, List.append_nil], List.not_mem_nil⟩
  silent _ := queue

theorem Proceeds.trans {a b c : Service} (h : a.Proceeds b) (h' : b.Proceeds c) :
    a.Proceeds c where
  isOpen := h'.isOpen.trans h.isOpen
  channel there := by
    obtain ⟨_, still⟩ := h.channel there
    exact h'.channel still
  queue := by
    obtain ⟨more, queue, lasts⟩ := h.queue
    obtain ⟨others, queue', lasts'⟩ := h'.queue
    refine ⟨more ++ others, by rw [queue', queue, List.append_assoc], fun mem => ?_⟩
    exact (List.mem_append.1 mem).elim lasts lasts'
  silent closed := (h'.silent (h.isOpen.trans closed)).trans (h.silent closed)

/-- The service is open, and its media channel is a loopback. -/
structure IsUp (s : Service) : Prop where
  isOpen : s.isOpen = true
  channel : ∃ channel, s.endpoint? .mediaChannel = some (.loopback channel)

theorem Proceeds.up {s s' : Service} (h : s.Proceeds s') (up : s.IsUp) : s'.IsUp where
  isOpen := h.isOpen.trans up.isOpen
  channel := by
    obtain ⟨_, there⟩ := up.channel
    exact h.channel there

variable (s : Service)

theorem proceeds_self : s.Proceeds s := proceeds_of_same rfl rfl rfl

theorem proceeds_send {envelope : Envelope} (other : envelope ≠ .shutdown) :
    s.Proceeds (s.send envelope) := by
  unfold Service.send
  split
  · refine ⟨rfl, fun there => ⟨_, there⟩, ⟨[envelope], rfl, ?_⟩, fun closed => ?_⟩
    · exact fun mem => other (List.mem_singleton.1 mem).symm
    · rename_i isOpen
      rw [closed] at isOpen
      cases isOpen
  · exact s.proceeds_self

theorem proceeds_post (e : Event) : s.Proceeds (s.post e) :=
  (proceeds_of_same rfl rfl rfl : s.Proceeds (s.record e)).trans
    ((s.record e).proceeds_send Envelope.noConfusion)

theorem proceeds_submit (e : Event) : s.Proceeds (s.submit e) :=
  (proceeds_of_same rfl rfl rfl : s.Proceeds (s.record e)).trans
    ((s.record e).proceeds_send Envelope.noConfusion)

theorem proceeds_performAll (effects : List Effect) :
    s.Proceeds (effects.foldl Service.perform s) := by
  induction effects generalizing s with
  | nil => exact s.proceeds_self
  | cons effect rest ih =>
    refine Proceeds.trans ?_ (ih (s.perform effect))
    cases effect with
    | post e => exact s.proceeds_post e
    | call t c => exact s.proceeds_self
    | resetAudio => exact s.proceeds_self

theorem proceeds_adopt (t : HubTurn) : s.Proceeds (s.adopt t) :=
  (proceeds_of_same rfl rfl rfl : s.Proceeds { s with hub := t.hub }).trans
    (proceeds_performAll _ t.effects)

theorem proceeds_undergo (act : Act) : s.Proceeds (s.undergo act) :=
  (proceeds_of_same rfl rfl rfl : s.Proceeds { s with hub := (s.hub.perform act).hub }).trans
    (proceeds_performAll _ _)

/-- A loopback that is asked remains a loopback. -/
theorem proceeds_setEndpoint {e : Event} {endpoint : Endpoint}
    (there : s.endpoint? e.target = some endpoint) :
    s.Proceeds (s.setEndpoint e.target (endpoint.ask e).2) := by
  refine ⟨rfl, fun {channel} own => ?_, ⟨[], (List.append_nil _).symm, List.not_mem_nil⟩,
    fun _ => rfl⟩
  unfold endpoint? Service.setEndpoint
  by_cases told : e.target = .mediaChannel
  · rw [told, own] at there
    obtain rfl := Option.some.inj there
    rw [told]
    exact ⟨_, if_pos rfl⟩
  · refine ⟨channel, ?_⟩
    have other : Subsystem.mediaChannel ≠ e.target := fun same => told same.symm
    show (if _ then _ else _) = _
    rw [if_neg other, Table.get?_erase, if_neg other]
    exact own

theorem proceeds_ask (e : Event) : s.Proceeds (s.ask e).2 := by
  have recorded : s.Proceeds (s.record e) := proceeds_of_same rfl rfl rfl
  unfold Service.ask
  simp only
  split
  · exact recorded
  · rename_i endpoint there
    have asked := recorded.trans ((s.record e).proceeds_setEndpoint there)
    split
    · exact asked
    · exact asked.trans (proceeds_of_same rfl rfl rfl)

theorem proceeds_awaitChannel (t : HubTurn) : s.Proceeds (s.awaitChannel t).1 := by
  unfold Service.awaitChannel
  simp only
  split
  · rename_i request _
    have asked := (s.proceeds_adopt t).trans ((s.adopt t).proceeds_ask request)
    split
    · exact asked
    · exact asked.trans (proceeds_adopt _ _)
  · exact s.proceeds_adopt t

theorem proceeds_await (t : HubTurn) : s.Proceeds (s.await t).1 := by
  unfold Service.await
  split
  · simp only
    split
    · exact s.proceeds_adopt t
    · exact (s.proceeds_adopt t).trans (proceeds_awaitChannel _ _)
  · exact s.proceeds_awaitChannel t

theorem proceeds_consult (e : Event) : s.Proceeds (s.consult e).2 := by
  rw [consult_snd]
  exact s.proceeds_await _

theorem proceeds_tell (endpoint : Endpoint) (e : Event) : s.Proceeds (s.tell endpoint e) := by
  cases endpoint with
  | loopback channel =>
    show s.Proceeds ((MediaChannel.hear e).elim s s.post)
    cases MediaChannel.hear e with
    | none => exact s.proceeds_self
    | some reply => exact s.proceeds_post reply
  | logger => exact s.proceeds_self
  | recorder number plan => exact proceeds_of_same rfl rfl rfl

theorem proceeds_dispatch (e : Event) : s.Proceeds (s.dispatch e) := by
  have told : ∀ endpoint : Option Endpoint, s.Proceeds (endpoint.elim s (s.tell · e)) := by
    rintro (_ | endpoint)
    · exact s.proceeds_self
    · exact s.proceeds_tell endpoint e
  unfold Service.dispatch
  cases e.target with
  | hub | context => exact s.proceeds_consult e
  | _ => exact told _

theorem proceeds_deliver {envelope : Envelope} (other : envelope ≠ .shutdown) :
    s.Proceeds (s.deliver envelope).2 := by
  cases envelope with
  | post e => exact s.proceeds_dispatch e
  | request e => exact s.proceeds_consult e
  | shutdown => exact absurd rfl other

variable {s}

/-- **What a move does to the queue**: it takes the first envelope, or none, and whatever is said
goes to the end. -/
theorem proceeds_move (m : Move) (lasts : m = .delivery → ∀ {rest}, s.queue ≠ .shutdown :: rest) :
    Proceeds { s with queue := s.queue.drop m.deliveries } (s.move m) := by
  cases m with
  | post e => exact s.proceeds_post e
  | submit e => exact s.proceeds_submit e
  | act act => exact s.proceeds_undergo act
  | delivery =>
    show Proceeds _ s.next.2
    unfold Service.next
    cases queue : s.queue with
    | nil => exact proceeds_of_same rfl rfl queue
    | cons envelope rest =>
      refine proceeds_deliver { s with queue := rest } ?_
      rintro rfl
      exact lasts rfl queue

/-! ## Turns -/

/-- What stands behind can be looked at apart from what stands ahead. -/
theorem Proceeds.behind {s' : Service} {ahead rest : List Envelope}
    (h : Proceeds { s with queue := ahead ++ rest } s') :
    ∃ more, s'.queue = ahead ++ (rest ++ more) ∧
      Proceeds { s with queue := rest } { s' with queue := rest ++ more } := by
  obtain ⟨more, queue, lasts⟩ := h.queue
  have queue : s'.queue = ahead ++ (rest ++ more) := by rw [queue, List.append_assoc]
  refine ⟨more, queue, h.isOpen, h.channel, ⟨more, rfl, lasts⟩, fun closed => ?_⟩
  have same : s'.queue = ahead ++ rest := h.silent closed
  exact List.append_cancel_left (queue.symm.trans same)

/-- **Everything has its turn.** After as many deliveries as there are envelopes ahead of it, the
rest of the queue stands first, whatever else happens meanwhile; what is new stands behind it. -/
theorem run_ahead {ahead rest : List Envelope} (queue : s.queue = ahead ++ rest)
    (lasts : .shutdown ∉ ahead) {moves : List Move} (turn : deliveries moves = ahead.length) :
    Proceeds { s with queue := rest } (s.run moves) := by
  induction moves generalizing s ahead rest with
  | nil =>
    obtain rfl := List.length_eq_zero_iff.1 turn.symm
    exact proceeds_of_same rfl rfl queue
  | cons m moves ih =>
    have turn : m.deliveries + deliveries moves = ahead.length := turn
    -- a move takes what stands first in the queue, if anything, and it is something ahead
    obtain ⟨left, isLeft, fewer, lasts'⟩ : ∃ left, s.queue.drop m.deliveries = left ++ rest ∧
        deliveries moves = left.length ∧ .shutdown ∉ left := by
      refine ⟨ahead.drop m.deliveries, ?_, ?_, fun mem => lasts (List.mem_of_mem_drop mem)⟩
      · rw [queue, List.drop_append_of_le_length (by omega)]
      · rw [List.length_drop]
        omega
    have moved := s.proceeds_move m fun isDelivery {after} first => by
      subst isDelivery
      cases ahead with
      | nil =>
        have none : 1 + deliveries moves = 0 := turn
        omega
      | cons envelope ahead =>
        obtain ⟨rfl, _⟩ := List.cons.inj (queue.symm.trans first)
        exact lasts (List.mem_cons_self ..)
    rw [isLeft] at moved
    obtain ⟨more, queue', proceeds⟩ := moved.behind
    exact proceeds.trans (ih queue' lasts' fewer)

/-- A service that is up, and of whose end nobody has asked, remains so. -/
theorem IsUp.run (up : s.IsUp) (lasts : .shutdown ∉ s.queue) (moves : List Move) :
    (s.run moves).IsUp ∧ .shutdown ∉ (s.run moves).queue := by
  induction moves generalizing s with
  | nil => exact ⟨up, lasts⟩
  | cons m moves ih =>
    have moved := s.proceeds_move m fun _ {rest} first =>
      lasts (first ▸ List.mem_cons_self ..)
    obtain ⟨more, queue, lasts'⟩ := moved.queue
    refine ih (moved.up ⟨up.isOpen, up.channel⟩) ?_
    rw [queue]
    intro mem
    exact (List.mem_append.1 mem).elim (fun old => lasts (List.mem_of_mem_drop old)) lasts'

/-- To deliver envelopes is to make that many moves. -/
theorem drain_eq_run (s : Service) (count : Nat) :
    s.drain count = s.run (List.replicate count .delivery) := by
  induction count generalizing s with
  | zero => rfl
  | succ count ih =>
    rw [drain_succ, ih]
    rfl

theorem deliveries_replicate (count : Nat) :
    deliveries (List.replicate count .delivery) = count := by
  induction count with
  | zero => rfl
  | succ count ih =>
    show 1 + deliveries (List.replicate count .delivery) = _
    rw [ih, Nat.add_comm]

theorem drain_ahead {ahead rest : List Envelope} (queue : s.queue = ahead ++ rest)
    (lasts : .shutdown ∉ ahead) :
    Proceeds { s with queue := rest } (s.drain ahead.length) := by
  rw [drain_eq_run]
  exact run_ahead queue lasts (deliveries_replicate _)

theorem drain_add (s : Service) (count more : Nat) :
    s.drain (count + more) = (s.drain count).drain more := by
  rw [drain_eq_run, drain_eq_run, drain_eq_run, ← run_append, List.replicate_append_replicate]

/-- Nothing is left in the queue of a service that has ended. -/
theorem drain_of_ends {ahead rest : List Envelope} (queue : s.queue = ahead ++ .shutdown :: rest)
    (first : .shutdown ∉ ahead) {count : Nat} (later : ahead.length < count) :
    (s.drain count).queue = [] := by
  obtain ⟨more, rfl⟩ := Nat.exists_eq_add_of_lt later
  obtain ⟨others, left, _⟩ := (drain_ahead queue first).queue
  have ended : (s.drain ahead.length).next.2.queue = [] := by
    unfold Service.next
    rw [show (s.drain ahead.length).queue = .shutdown :: (rest ++ others) from left]
    rfl
  rw [Nat.add_assoc, drain_add, drain_succ, drain_of_empty ended]
  exact ended

/-! ## Requests -/

/-- **A request is handled when its turn has come**, if the service lasts until then. -/
theorem request_of_lasts (isOpen : s.isOpen = true) (lasts : .shutdown ∉ s.queue) (e : Event) :
    ∃ more, ((s.submit e).drain s.queue.length).queue = .request e :: more ∧
      s.request e
        = consult { (s.submit e).drain s.queue.length with queue := more } e := by
  have queued : (s.submit e).queue = s.queue ++ [.request e] := by
    unfold Service.submit Service.send
    rw [if_pos (show (s.record e).isOpen = true from isOpen)]
    rfl
  obtain ⟨more, queue, _⟩ := (drain_ahead queued lasts).queue
  refine ⟨more, queue, ?_⟩
  unfold Service.request Service.next
  rw [queue]
  rfl

/-- A request is left without an answer by a service that has ended, or ends before its turn has
come. -/
theorem request_of_ends (ends : s.isOpen = false ∨ .shutdown ∈ s.queue) (e : Event) :
    (s.request e).1 = .error .channelClosed := by
  have nothing : ((s.submit e).drain s.queue.length).queue = [] := by
    by_cases lasts : .shutdown ∈ s.queue
    · obtain ⟨ahead, rest, queue, first⟩ := List.eq_append_cons_of_mem lasts
      obtain ⟨more, queued, _⟩ := (s.proceeds_submit e).queue
      rw [queue, List.append_assoc, List.cons_append] at queued
      refine drain_of_ends queued first ?_
      rw [queue, List.length_append]
      exact Nat.lt_add_of_pos_right (Nat.succ_pos _)
    · -- what is said after the end is lost
      have closed : s.isOpen = false := ends.resolve_right lasts
      have queued : (s.submit e).queue = s.queue ++ [] := by
        rw [(s.proceeds_submit e).silent closed, List.append_nil]
      exact (drain_ahead queued lasts).silent ((s.proceeds_submit e).isOpen.trans closed)
  unfold Service.request Service.next
  rw [nothing]
  rfl

end Service

end CastHub
