import CastHub.Config
import CastHub.Proofs.Roster
import Mathlib.Data.List.Nodup
/-!
# Populations

The members of all contexts of a hub, together with those that are still in the making. Whatever
happens to a hub, its population changes by a few small steps only (`Population.Step`), each of them
with the guard under which it is taken. Every statement about whole histories is proved step by step
here and carried over to hubs afterwards.

* `Population.Orderly` : everybody is entered under its own identity and has a channel. So it stays,
  whatever identities are handed out (`Population.Orderly.run`);
* `Population.Uses` : an identity is that of somebody or something that is there, or it is waited
  for;
* `Population.Sound` : sources hang on sinks, sinks wait for their sources, and nobody in the making
  can be taken for somebody who is there. So it stays as long as no identity is handed out that is
  in use (`Population.Sound.run`).
-/

namespace CastHub

/-- A member in the making. -/
structure Arrival where
  context : Id
  member : Member
  /-- Whether the quotas count it. -/
  counted : Bool

/-- The members of all contexts. -/
structure Population where
  /-- The rosters of the contexts that are held. -/
  rosters : Table Id Roster
  /-- The rosters of the contexts that have been released. -/
  detached : Table Id Roster
  /-- The members in the making, the latest first. -/
  arrivals : List Arrival
  limits : Limits

/-- A small step that a population takes. -/
inductive Change where
  | limited (limits : Limits)
  | opened (context : Id)
  /-- A context is closed in which nobody is. -/
  | closed (context : Id)
  /-- A context is closed, whoever is in it. -/
  | released (context : Id)
  | begun (arrival : Arrival)
  /-- The latest arrival comes to nothing. -/
  | dropped
  /-- The latest arrival joins its context. -/
  | published (arrival : Arrival) (member : Member)
  /-- The latest arrival joins its context, but the context has been released. -/
  | stranded (arrival : Arrival) (member : Member)
  | tornDown (context agent : Id)
  | left (context : Id) (member : Member)

/-- The identities that a change hands out. -/
def Change.mints : Change → List Id
  | .opened x => [x]
  | .begun ar => [ar.member.id]
  | _ => []

/-- How a member differs from what it was in the making: a sink has got its channel. -/
structure Member.Completes (m n : Member) : Prop where
  eq : m = { n with channel := m.channel }
  sink : n.role = .sink → m.channel ≠ .unassigned
  source : n.role = .source → m.channel = n.channel

/-- What is known about a member in the making, whoever else is there. -/
structure Arrival.IsNew (ar : Arrival) : Prop where
  assigned : ar.member.id ≠ .unassigned
  new : ar.member.who = ar.member
  channelled : ar.member.role = .source → ar.member.channel ≠ .unassigned

namespace Population

/-! ## What a population knows -/

/-- Everybody on the roster of a context, each with the context. -/
def attendance (x : Id) (r : Roster) : List (Id × Member) := r.people.map fun f => (x, f.2)

/-- Everybody who is in a context that is held. -/
def present (p : Population) : List (Id × Member) := p.rosters.flatMap fun e => attendance e.1 e.2

/-- How many members of a role are there. -/
def live (p : Population) (role : Role) : Nat := p.present.countP (·.2.role = role)

/-- How many members of a role are in the making within their quota. -/
def pending (p : Population) (role : Role) : Nat :=
  p.arrivals.countP fun ar => ar.counted && ar.member.role = role

/-- How much of a quota is used up. -/
def inUse (p : Population) (role : Role) : Nat := p.live role + p.pending role

/-- Whether a roster is that of a context: of the one that is held, or else of the one that has been
released. -/
def Holds (p : Population) (x : Id) (r : Roster) : Prop :=
  (p.rosters.get? x).or (p.detached.get? x) = some r

/-- A context is closed. -/
def detach (p : Population) (x : Id) : Population :=
  { p with rosters := p.rosters.erase x, detached := p.detached.put x [] }

/-- The identities that several changes hand out, in order. -/
def minted (cs : List Change) : List Id := cs.flatMap Change.mints

theorem minted_append (cs ds : List Change) : minted (cs ++ ds) = minted cs ++ minted ds :=
  List.flatMap_append

theorem minted_snoc (cs : List Change) (c : Change) :
    minted (cs ++ [c]) = minted cs ++ c.mints := by
  rw [minted_append]
  exact congrArg _ (List.append_nil _)

theorem holds_of_held {p : Population} {x : Id} {r : Roster} (held : p.rosters.get? x = some r) :
    p.Holds x r := by
  unfold Holds
  rw [held]
  rfl

theorem holds_of_released {p : Population} {x : Id} {r : Roster} (gone : p.rosters.get? x = none)
    (kept : p.detached.get? x = some r) : p.Holds x r := by
  unfold Holds
  rw [gone, kept]
  rfl

theorem Holds.unique {p : Population} {x : Id} {r r' : Roster} (holds : p.Holds x r)
    (holds' : p.Holds x r') : r = r' := Option.some.inj (holds.symm.trans holds')

/-! ## Steps -/

/-- The steps that a population takes, and when it may take them. -/
inductive Step (p : Population) : Change → Population → Prop
  | limited (limits : Limits) : Step p (.limited limits) { p with limits }
  | opened (x : Id) (assigned : x ≠ .unassigned) (room : p.rosters.length < p.limits.contexts) :
      Step p (.opened x) { p with rosters := p.rosters.put x [] }
  | closed (x : Id) (empty : p.rosters.get? x = some []) : Step p (.closed x) (p.detach x)
  | released (x : Id) (r : Roster) (held : p.rosters.get? x = some r) :
      Step p (.released x) (p.detach x)
  | begun (ar : Arrival) (assigned : ar.member.id ≠ .unassigned) (new : ar.member.who = ar.member)
      (room : ar.counted = true → p.inUse ar.member.role < p.limits.agents ar.member.role)
      (r : Roster) (held : p.rosters.get? ar.context = some r)
      (anchored : ar.member.role = .source → ∃ s, r.get? ar.member.sink = some s ∧
        s.role = .sink ∧ s.channel = ar.member.channel) :
      Step p (.begun ar) { p with arrivals := ar :: p.arrivals }
  | dropped (ar : Arrival) (rest : List Arrival) (latest : p.arrivals = ar :: rest) :
      Step p .dropped { p with arrivals := rest }
  | published (ar : Arrival) (rest : List Arrival) (m : Member) (r : Roster)
      (latest : p.arrivals = ar :: rest) (held : p.rosters.get? ar.context = some r)
      (ready : m.Completes ar.member)
      (welcome : m.role = .source → ∃ s, r.get? m.sink = some s ∧ s.destroying = false) :
      Step p (.published ar m)
        { p with arrivals := rest, rosters := p.rosters.put ar.context (r.put m.id m) }
  | stranded (ar : Arrival) (rest : List Arrival) (m : Member) (r : Roster)
      (latest : p.arrivals = ar :: rest) (gone : p.rosters.get? ar.context = none)
      (kept : p.detached.get? ar.context = some r) (ready : m.Completes ar.member)
      (welcome : m.role = .source → ∃ s, r.get? m.sink = some s ∧ s.destroying = false) :
      Step p (.stranded ar m)
        { p with arrivals := rest, detached := p.detached.put ar.context (r.put m.id m) }
  | tornDown (x id : Id) (r : Roster) (held : p.rosters.get? x = some r) :
      Step p (.tornDown x id) { p with rosters := p.rosters.put x (r.tearDown id) }
  | left (x : Id) (r : Roster) (m : Member) (held : p.rosters.get? x = some r)
      (here : r.get? m.id = some m) (free : m.role = .sink → r.hasSourceOf m.id = false) :
      Step p (.left x m) { p with rosters := p.rosters.put x (r.leave m) }

/-- Several steps, in order. -/
inductive Run (p : Population) : List Change → Population → Prop
  | nil : Run p [] p
  | snoc {cs : List Change} {c : Change} {q r : Population} (run : Run p cs q) (step : Step q c r) :
      Run p (cs ++ [c]) r

theorem Run.single {p q : Population} {c : Change} (step : Step p c q) : Run p [c] q :=
  Run.nil.snoc step

theorem Run.append {p q r : Population} {cs ds : List Change} (first : Run p cs q)
    (second : Run q ds r) : Run p (cs ++ ds) r := by
  induction second with
  | nil => rwa [List.append_nil]
  | snoc _ step ih =>
    rw [← List.append_assoc]
    exact ih.snoc step

/-! ## Rosters that change -/

/-- A roster after one was changed is that one, or was there before. -/
theorem Holds.of_put {p q : Population} {x y : Id} {r r' : Roster} (holds : q.Holds x r')
    (rosters : q.rosters = p.rosters.put y r) (detached : q.detached = p.detached) :
    (x = y ∧ r' = r) ∨ p.Holds x r' := by
  unfold Holds at holds ⊢
  rw [rosters, detached, Table.get?_put] at holds
  split at holds
  · exact .inl ⟨‹_›, (Option.some.inj holds).symm⟩
  · exact .inr holds

theorem Holds.of_putDetached {p q : Population} {x y : Id} {r r' : Roster} (holds : q.Holds x r')
    (detached : q.detached = p.detached.put y r) (rosters : q.rosters = p.rosters) :
    (x = y ∧ r' = r) ∨ p.Holds x r' := by
  unfold Holds at holds ⊢
  rw [rosters, detached] at holds
  cases held : p.rosters.get? x with
  | some s =>
    rw [held] at holds
    exact .inr holds
  | none =>
    rw [held] at holds
    exact Table.get?_put_cases holds

theorem Holds.of_detach {p : Population} {x y : Id} {r : Roster} (holds : (p.detach y).Holds x r) :
    (x = y ∧ r = []) ∨ p.Holds x r := by
  unfold Holds detach at holds
  rw [Table.get?_erase, Table.get?_put] at holds
  split at holds
  · exact .inl ⟨‹_›, (Option.some.inj holds).symm⟩
  · exact .inr holds

/-- A context that somebody is in and that is held after a step was held before. -/
theorem Step.held {p q : Population} {c : Change} (step : Step p c q) {x id : Id} {r : Roster}
    {m : Member} (held : q.rosters.get? x = some r) (here : r.get? id = some m) :
    ∃ r₀, p.rosters.get? x = some r₀ := by
  have put : ∀ {y r₀ r'}, p.rosters.get? y = some r₀ → (p.rosters.put y r').get? x = some r →
      ∃ r₀, p.rosters.get? x = some r₀ := by
    intro y r₀ r' before after
    rcases Table.get?_put_cases after with ⟨rfl, _⟩ | same
    · exact ⟨_, before⟩
    · exact ⟨_, same⟩
  cases step with
  | opened y assigned room =>
    rcases Table.get?_put_cases held with ⟨_, rfl⟩ | before
    · cases here
    · exact ⟨r, before⟩
  | closed y empty => exact ⟨r, Table.get?_of_get?_erase held⟩
  | released y s isHeld => exact ⟨r, Table.get?_of_get?_erase held⟩
  | published ar rest n s latest isHeld ready welcome => exact put isHeld held
  | tornDown y torn s isHeld => exact put isHeld held
  | left y s n isHeld isHere free => exact put isHeld held
  | _ => exact ⟨r, held⟩

/-! ## Order -/

/-- A population in which everybody is entered under its own identity. -/
structure Orderly (p : Population) : Prop where
  sorted : p.rosters.Sorted
  sortedDetached : p.detached.Sorted
  filed : ∀ {x r}, p.Holds x r → r.Filed
  assigned : ∀ {x r}, p.Holds x r → x ≠ .unassigned
  new : ∀ ar ∈ p.arrivals, ar.IsNew

theorem Orderly.filed_of_held {p : Population} (h : p.Orderly) {x : Id} {r : Roster}
    (held : p.rosters.get? x = some r) : r.Filed := h.filed (holds_of_held held)

/-- Order is kept if every roster is an old one or is in order itself. -/
theorem Orderly.of_filed {p q : Population} (h : p.Orderly) (sorted : q.rosters.Sorted)
    (sortedDetached : q.detached.Sorted) (fewer : q.arrivals ⊆ p.arrivals)
    (rosters : ∀ {x r}, q.Holds x r → p.Holds x r ∨ (r.Filed ∧ x ≠ .unassigned)) :
    q.Orderly where
  sorted := sorted
  sortedDetached := sortedDetached
  filed holds := (rosters holds).elim h.filed (·.1)
  assigned holds := (rosters holds).elim h.assigned (·.2)
  new ar mem := h.new ar (fewer mem)

theorem Orderly.put {p : Population} (h : p.Orderly) {x : Id} {r : Roster} {rest : List Arrival}
    (fewer : rest ⊆ p.arrivals) (filed : r.Filed) (assigned : x ≠ .unassigned) :
    ({ p with arrivals := rest, rosters := p.rosters.put x r } : Population).Orderly := by
  refine h.of_filed (Table.sorted_put h.sorted) h.sortedDetached fewer fun holds => ?_
  rcases holds.of_put rfl rfl with ⟨rfl, rfl⟩ | before
  · exact .inr ⟨filed, assigned⟩
  · exact .inl before

theorem Orderly.detach {p : Population} (h : p.Orderly) {x : Id} {r : Roster}
    (held : p.rosters.get? x = some r) : (p.detach x).Orderly := by
  refine h.of_filed (Table.sorted_erase h.sorted) (Table.sorted_put h.sortedDetached)
    (List.Subset.refl _) fun holds => ?_
  rcases holds.of_detach with ⟨rfl, rfl⟩ | before
  · exact .inr ⟨Roster.filed_nil, h.assigned (holds_of_held held)⟩
  · exact .inl before

/-- A roster that takes the latest arrival in remains in order. -/
theorem Orderly.welcome {p : Population} (h : p.Orderly) {ar : Arrival} {rest : List Arrival}
    (latest : p.arrivals = ar :: rest) {r : Roster} (holds : p.Holds ar.context r) {m : Member}
    (ready : m.Completes ar.member) : Roster.Filed (r.put m.id m) := by
  have new : ar.IsNew := h.new ar (latest ▸ List.mem_cons_self ..)
  refine (h.filed holds).put ?_ ?_
  · rw [ready.eq]
    exact new.assigned
  · cases own : ar.member.role with
    | sink => exact ready.sink own
    | source =>
      rw [ready.source own]
      exact new.channelled own

/-- **Order is kept by every step**, whatever identity is handed out. -/
theorem Orderly.step {p q : Population} {c : Change} (h : p.Orderly) (step : Step p c q) :
    q.Orderly := by
  cases step with
  | limited limits => exact h.of_filed h.sorted h.sortedDetached (List.Subset.refl _) .inl
  | opened x assigned room => exact h.put (List.Subset.refl _) Roster.filed_nil assigned
  | closed x empty => exact h.detach empty
  | released x r held => exact h.detach held
  | begun ar assigned new room r held anchored =>
    refine ⟨h.sorted, h.sortedDetached, h.filed, h.assigned,
      List.forall_mem_cons.2 ⟨⟨assigned, new, fun source => ?_⟩, h.new⟩⟩
    obtain ⟨s, found, _, channel⟩ := anchored source
    rw [← channel]
    exact (h.filed_of_held held).channelled found
  | dropped ar rest latest =>
    exact h.of_filed h.sorted h.sortedDetached (latest ▸ List.subset_cons_self ..) .inl
  | published ar rest m r latest held ready welcome =>
    have holds := holds_of_held held
    exact h.put (latest ▸ List.subset_cons_self ..) (h.welcome latest holds ready)
      (h.assigned holds)
  | stranded ar rest m r latest gone kept ready welcome =>
    have there := holds_of_released gone kept
    refine h.of_filed h.sorted (Table.sorted_put h.sortedDetached)
      (latest ▸ List.subset_cons_self ..) fun holds => ?_
    rcases holds.of_putDetached rfl rfl with ⟨rfl, rfl⟩ | before
    · exact .inr ⟨h.welcome latest there ready, h.assigned there⟩
    · exact .inl before
  | tornDown x id r held =>
    have holds := holds_of_held held
    exact h.put (List.Subset.refl _) ((h.filed holds).tearDown id) (h.assigned holds)
  | left x r m held here free =>
    have holds := holds_of_held held
    exact h.put (List.Subset.refl _) ((h.filed holds).leave m) (h.assigned holds)

theorem Orderly.run {p q : Population} {cs : List Change} (h : p.Orderly) (run : Run p cs q) :
    q.Orderly := by
  induction run with
  | nil => exact h
  | snoc _ step ih => exact ih.step step

/-! ## Identities in use -/

/-- What an identity may be in use for. -/
inductive Uses (p : Population) (id : Id) : Prop
  | context {r : Roster} (held : p.rosters.get? id = some r)
  | member {x : Id} {r : Roster} {m : Member} (held : p.rosters.get? x = some r)
      (here : r.get? id = some m)
  /-- It is that of the context that somebody in the making will join. -/
  | target {ar : Arrival} (mem : ar ∈ p.arrivals) (same : ar.context = id)
  | arrival {ar : Arrival} (mem : ar ∈ p.arrivals) (same : ar.member.id = id)
  /-- It is that of the sink that a source in the making will hang on. -/
  | sink {ar : Arrival} (mem : ar ∈ p.arrivals) (source : ar.member.role = .source)
      (same : ar.member.sink = id)

theorem Uses.of_fewer {p q : Population} {id : Id} (uses : q.Uses id)
    (fewer : q.arrivals ⊆ p.arrivals)
    (contexts : ∀ {r}, q.rosters.get? id = some r → p.Uses id)
    (members : ∀ {x r m}, q.rosters.get? x = some r → r.get? id = some m → p.Uses id) :
    p.Uses id := by
  cases uses with
  | context held => exact contexts held
  | member held here => exact members held here
  | target mem same => exact .target (fewer mem) same
  | arrival mem same => exact .arrival (fewer mem) same
  | sink mem source same => exact .sink (fewer mem) source same

theorem Uses.of_same {p q : Population} {id : Id} (uses : q.Uses id)
    (fewer : q.arrivals ⊆ p.arrivals) (same : q.rosters = p.rosters) : p.Uses id :=
  uses.of_fewer fewer (fun held => .context (same ▸ held)) fun held here =>
    .member (same ▸ held) here

theorem Uses.of_put {p : Population} {x id : Id} {r r' : Roster} {rest : List Arrival}
    (uses : Uses { p with arrivals := rest, rosters := p.rosters.put x r' } id)
    (fewer : rest ⊆ p.arrivals) (held : p.rosters.get? x = some r)
    (members : ∀ {m}, r'.get? id = some m → p.Uses id) : p.Uses id := by
  refine uses.of_fewer fewer (fun later => ?_) fun later here => ?_
  · rcases Table.get?_put_cases later with ⟨rfl, _⟩ | before
    · exact .context held
    · exact .context before
  · rcases Table.get?_put_cases later with ⟨_, rfl⟩ | before
    · exact members here
    · exact .member before here

theorem Uses.of_detach {p : Population} {x id : Id} (uses : (p.detach x).Uses id) : p.Uses id :=
  uses.of_fewer (List.Subset.refl _) (fun held => .context (Table.get?_of_get?_erase held))
    fun held here => .member (Table.get?_of_get?_erase held) here

/-- A member that changes only as far as its teardown goes was there before. -/
theorem exists_of_people {id : Id} {r r' : Roster}
    (same : r'.people.get? id = none ∨ r'.people.get? id = r.people.get? id) {m : Member}
    (found : r'.get? id = some m) : ∃ n, r.get? id = some n ∧ n.who = m.who := by
  rw [Roster.get?_people, Roster.get?_people, found] at same
  rcases same with same | same
  · cases same
  · exact Option.map_eq_some_iff.1 same.symm

/-- Whoever is still there when somebody has left is who it was. -/
theorem people_leave_cases {r : Roster} (sorted : r.Sorted) (m : Member) (id : Id) :
    (r.leave m).people.get? id = none ∨ (r.leave m).people.get? id = r.people.get? id := by
  rw [Roster.people_leave sorted, Table.get?_erase]
  split
  · exact .inl rfl
  · exact .inr rfl

/-- **An identity that is in use after a step was in use before, or it has been handed out.** -/
theorem Orderly.uses_step {p q : Population} {c : Change} (h : p.Orderly) (step : Step p c q)
    {id : Id} (uses : q.Uses id) : p.Uses id ∨ id ∈ c.mints := by
  cases step with
  | limited limits => exact .inl (uses.of_same (List.Subset.refl _) rfl)
  | opened x assigned room =>
    by_cases isIt : id = x
    · exact .inr (List.mem_singleton.2 isIt)
    · refine .inl (uses.of_fewer (List.Subset.refl _) (fun held => ?_) fun held here => ?_)
      · rw [Table.get?_put, if_neg isIt] at held
        exact .context held
      · rcases Table.get?_put_cases held with ⟨_, rfl⟩ | before
        · cases here
        · exact .member before here
  | closed x empty => exact .inl uses.of_detach
  | released x r isHeld => exact .inl uses.of_detach
  | begun ar assigned new room r held anchored =>
    cases uses with
    | context held => exact .inl (.context held)
    | member held here => exact .inl (.member held here)
    | target mem same =>
      rcases List.mem_cons.1 mem with rfl | before
      · exact .inl (.context (same ▸ held))
      · exact .inl (.target before same)
    | arrival mem same =>
      rcases List.mem_cons.1 mem with rfl | before
      · exact .inr (List.mem_singleton.2 same.symm)
      · exact .inl (.arrival before same)
    | sink mem source same =>
      rcases List.mem_cons.1 mem with rfl | before
      · obtain ⟨s, found, _⟩ := anchored source
        exact .inl (.member held (same ▸ found))
      · exact .inl (.sink before source same)
  | dropped ar rest latest =>
    exact .inl (uses.of_same (latest ▸ List.subset_cons_self ..) rfl)
  | published ar rest m r latest held ready welcome =>
    refine .inl (uses.of_put (latest ▸ List.subset_cons_self ..) held fun found => ?_)
    rcases Table.get?_put_cases found with ⟨rfl, _⟩ | before
    · exact .arrival (latest ▸ List.mem_cons_self ..) (by rw [ready.eq])
    · exact .member held before
  | stranded ar rest m r latest gone kept ready welcome =>
    exact .inl (uses.of_same (latest ▸ List.subset_cons_self ..) rfl)
  | tornDown x torn r held =>
    refine .inl (uses.of_put (List.Subset.refl _) held fun found => ?_)
    obtain ⟨n, here, _⟩ := exists_of_people (r := r)
      (.inr (by rw [Roster.people_tearDown (h.filed_of_held held).sorted])) found
    exact .member held here
  | left x r m held here free =>
    refine .inl (uses.of_put (List.Subset.refl _) held fun found => ?_)
    obtain ⟨n, here, _⟩ :=
      exists_of_people (people_leave_cases (h.filed_of_held held).sorted m id) found
    exact .member held here

theorem Orderly.uses_run {p q : Population} {cs : List Change} (h : p.Orderly) (run : Run p cs q)
    {id : Id} (uses : q.Uses id) : p.Uses id ∨ id ∈ minted cs := by
  induction run with
  | nil => exact .inl uses
  | snoc run step ih =>
    rw [minted_snoc]
    rcases (h.run run).uses_step step uses with before | now
    · exact (ih before).imp_right (List.mem_append_left _)
    · exact .inr (List.mem_append_right _ now)

/-! ## Soundness -/

/-- What is known about a member in the making: nobody goes by its identity, and its sink, if it is
still there, is the one that it was made for. -/
structure Awaits (p : Population) (ar : Arrival) : Prop where
  absent : ∀ {x r}, p.rosters.get? x = some r → r.get? ar.member.id = none
  absentThere : ∀ {r}, p.Holds ar.context r → r.get? ar.member.id = none
  sinkMade : ar.member.role = .source → ∀ br ∈ p.arrivals, br.member.id ≠ ar.member.sink
  anchor : ar.member.role = .source → ∀ {r s}, p.Holds ar.context r →
    r.get? ar.member.sink = some s → s.role = .sink ∧ s.channel = ar.member.channel

/-- A population in which everything is in order. -/
structure Sound (p : Population) : Prop extends Orderly p where
  attached : ∀ {x r}, p.Holds x r → r.Attached
  settled : ∀ {x r}, p.Holds x r → r.Settled
  /-- Nobody is in two contexts. -/
  lone : ∀ {x y r s id m n}, p.rosters.get? x = some r → r.get? id = some m →
    p.rosters.get? y = some s → s.get? id = some n → x = y
  awaits : ∀ ar ∈ p.arrivals, p.Awaits ar
  distinct : p.arrivals.Pairwise fun a b => a.member.id ≠ b.member.id

theorem Sound.attached_of_held {p : Population} (h : p.Sound) {x : Id} {r : Roster}
    (held : p.rosters.get? x = some r) : r.Attached := h.attached (holds_of_held held)

/-- A population without contexts and arrivals is in order. -/
theorem sound_of_empty {p : Population} (rosters : p.rosters = []) (detached : p.detached = [])
    (arrivals : p.arrivals = []) : p.Sound := by
  have nobody : ∀ {x r}, ¬ p.Holds x r := by
    intro x r holds
    unfold Holds at holds
    rw [rosters, detached] at holds
    cases holds
  refine ⟨⟨?_, ?_, ?_, ?_, ?_⟩, ?_, ?_, ?_, ?_, ?_⟩
  · rw [rosters]
    exact List.Pairwise.nil
  · rw [detached]
    exact List.Pairwise.nil
  · exact fun holds => absurd holds nobody
  · exact fun holds => absurd holds nobody
  · rw [arrivals]
    intro _ mem
    cases mem
  · exact fun holds => absurd holds nobody
  · exact fun holds => absurd holds nobody
  · exact fun held => absurd (holds_of_held held) nobody
  · rw [arrivals]
    intro _ mem
    cases mem
  · rw [arrivals]
    exact List.Pairwise.nil

/-- Nothing is in use in a population without contexts and arrivals. -/
theorem not_uses_of_empty {p : Population} (rosters : p.rosters = []) (arrivals : p.arrivals = [])
    (id : Id) : ¬ p.Uses id := by
  intro uses
  cases uses with
  | context held => rw [rosters] at held; cases held
  | member held => rw [rosters] at held; cases held
  | target mem => rw [arrivals] at mem; cases mem
  | arrival mem => rw [arrivals] at mem; cases mem
  | sink mem => rw [arrivals] at mem; cases mem

/-- Where a member of a later population comes from: it was there before, or it was an arrival
that is no longer awaited. -/
def Comes (p : Population) (rest : List Arrival) (x id : Id) (m : Member) : Prop :=
  (∃ r n, p.Holds x r ∧ r.get? id = some n ∧ n.who = m.who) ∨
  (∃ ar ∈ p.arrivals, ar.context = x ∧ ar.member.id = id ∧ ∀ br ∈ rest, br.member.id ≠ id)

/-- Nobody in the making is confused by what happens to others. -/
theorem Awaits.of_comes {p q : Population} {ar : Arrival} (h : p.Awaits ar) (mem : ar ∈ q.arrivals)
    (fewer : q.arrivals ⊆ p.arrivals)
    (held : ∀ {x r id m}, q.rosters.get? x = some r → r.get? id = some m →
      ∃ r₀, p.rosters.get? x = some r₀)
    (comes : ∀ {x r id m}, q.Holds x r → r.get? id = some m → p.Comes q.arrivals x id m) :
    q.Awaits ar where
  absent := by
    intro x r isHeld
    cases found : r.get? ar.member.id with
    | none => rfl
    | some m =>
      obtain ⟨r₀, before⟩ := held isHeld found
      rcases comes (holds_of_held isHeld) found with ⟨r₁, n, was, here, _⟩ | ⟨br, _, _, _, others⟩
      · obtain rfl := was.unique (holds_of_held before)
        rw [h.absent before] at here
        cases here
      · exact absurd rfl (others ar mem)
  absentThere := by
    intro r holds
    cases found : r.get? ar.member.id with
    | none => rfl
    | some m =>
      rcases comes holds found with ⟨r₀, n, before, here, _⟩ | ⟨br, _, _, _, others⟩
      · rw [h.absentThere before] at here
        cases here
      · exact absurd rfl (others ar mem)
  sinkMade source br later := h.sinkMade source br (fewer later)
  anchor := by
    intro source r s holds found
    -- the sink is no arrival, so it is the one that was there before
    rcases comes holds found with ⟨r₀, n, before, here, who⟩ | ⟨br, here, _, isSink, _⟩
    · obtain ⟨isSink, channel⟩ := h.anchor source before here
      rw [← Member.role_who, ← Member.channel_who, ← who]
      exact ⟨isSink, channel⟩
    · exact absurd isSink (h.sinkMade source br here)

/-- Two that go by one identity in contexts that are held are in one context. -/
theorem Sound.lone_of_comes {p : Population} (h : p.Sound) {rest : List Arrival} {x y id : Id}
    {m n : Member} {r s : Roster} (heldX : p.rosters.get? x = some r)
    (heldY : p.rosters.get? y = some s) (comesX : p.Comes rest x id m)
    (comesY : p.Comes rest y id n) : x = y := by
  rcases comesX with ⟨r', _, holds, here, _⟩ | ⟨ar, mem, isX, isIt, _⟩
  · obtain rfl := holds.unique (holds_of_held heldX)
    rcases comesY with ⟨s', _, holds', there, _⟩ | ⟨br, mem', _, isIt', _⟩
    · obtain rfl := holds'.unique (holds_of_held heldY)
      exact h.lone heldX here heldY there
    · rw [← isIt', (h.awaits br mem').absent heldX] at here
      cases here
  · rcases comesY with ⟨s', _, holds', there, _⟩ | ⟨br, mem', isY, isIt', _⟩
    · obtain rfl := holds'.unique (holds_of_held heldY)
      rw [← isIt, (h.awaits ar mem).absent heldY] at there
      cases there
    · have ids : (p.arrivals.map (·.member.id)).Nodup := List.pairwise_map.2 h.distinct
      have same : ar = br := List.inj_on_of_nodup_map ids mem mem' (isIt.trans isIt'.symm)
      rw [← isX, ← isY, same]

/-- Soundness is kept if every roster is an old one or is sound itself, and nobody comes from
nowhere. -/
theorem Sound.of_comes {p q : Population} (h : p.Sound) (orderly : q.Orderly)
    (fewer : q.arrivals.Sublist p.arrivals)
    (held : ∀ {x r id m}, q.rosters.get? x = some r → r.get? id = some m →
      ∃ r₀, p.rosters.get? x = some r₀)
    (rosters : ∀ {x r}, q.Holds x r → p.Holds x r ∨ (r.Attached ∧ r.Settled ∧
      ∀ {id m}, r.get? id = some m → p.Comes q.arrivals x id m)) : q.Sound := by
  have comes : ∀ {x r id m}, q.Holds x r → r.get? id = some m → p.Comes q.arrivals x id m := by
    intro x r id m holds here
    rcases rosters holds with before | ⟨_, _, new⟩
    · exact .inl ⟨r, m, before, here, rfl⟩
    · exact new here
  refine ⟨orderly, ?_, ?_, ?_, ?_, h.distinct.sublist fewer⟩
  · exact fun holds => (rosters holds).elim h.attached (·.1)
  · exact fun holds => (rosters holds).elim h.settled (·.2.1)
  · intro x y r s id m n heldX here heldY there
    obtain ⟨_, beforeX⟩ := held heldX here
    obtain ⟨_, beforeY⟩ := held heldY there
    exact h.lone_of_comes beforeX beforeY (comes (holds_of_held heldX) here)
      (comes (holds_of_held heldY) there)
  · exact fun ar mem =>
      (h.awaits ar (fewer.subset mem)).of_comes mem fewer.subset held comes

/-- A roster takes the latest arrival in. -/
theorem Sound.welcome {p : Population} (h : p.Sound) {ar : Arrival} {rest : List Arrival}
    (latest : p.arrivals = ar :: rest) {r : Roster} (holds : p.Holds ar.context r) {m : Member}
    (ready : m.Completes ar.member)
    (welcome : m.role = .source → ∃ s, r.get? m.sink = some s ∧ s.destroying = false) :
    (Roster.Attached (r.put m.id m)) ∧ (Roster.Settled (r.put m.id m)) ∧
    ∀ {id n}, Table.get? (r.put m.id m) id = some n → p.Comes rest ar.context id n := by
  have mem : ar ∈ p.arrivals := latest ▸ List.mem_cons_self ..
  have awaited := h.awaits ar mem
  have attached := h.attached holds
  have filed := h.toOrderly.welcome latest holds ready
  have isIt : m.id = ar.member.id := by rw [ready.eq]
  have role : m.role = ar.member.role := by rw [ready.eq]
  have sink : m.sink = ar.member.sink := by rw [ready.eq]
  have new : r.get? m.id = none := isIt ▸ awaited.absentThere holds
  -- nobody has told it to go while it was made
  have alive : m.destroying = false ∧ m.doomed = false := by
    rw [ready.eq, ← (h.new ar mem).new]
    exact ⟨rfl, rfl⟩
  have here : Table.get? (r.put m.id m) m.id = some m := by rw [Table.get?_put, if_pos rfl]
  have anchored : m.role = .source →
      ∃ s, r.get? m.sink = some s ∧ s.role = .sink ∧ s.channel = m.channel := by
    intro source
    obtain ⟨s, found, _⟩ := welcome source
    have own : ar.member.role = .source := role.symm.trans source
    obtain ⟨isSink, channel⟩ := awaited.anchor own holds (sink ▸ found)
    exact ⟨s, found, isSink, channel.trans (ready.source own).symm⟩
  refine ⟨attached.put new (filed.keyed here).2 (filed.channelled here) anchored,
    (h.settled holds).put attached new alive welcome, ?_⟩
  intro id n found
  rcases Table.get?_put_cases found with ⟨same, _⟩ | before
  · refine .inr ⟨ar, mem, rfl, by rw [same, isIt], ?_⟩
    rw [same, isIt]
    have distinct := h.distinct
    rw [latest] at distinct
    exact fun br later => ((List.pairwise_cons.1 distinct).1 br later).symm
  · exact .inl ⟨r, n, holds, before, rfl⟩

/-- Somebody new is in the making, and whoever was there before is not confused by that. -/
theorem Sound.begin {p : Population} (h : p.Sound) {ar : Arrival} (fresh : ¬ p.Uses ar.member.id)
    {r : Roster} (held : p.rosters.get? ar.context = some r)
    (anchored : ar.member.role = .source → ∃ s, r.get? ar.member.sink = some s ∧
      s.role = .sink ∧ s.channel = ar.member.channel)
    (orderly : ({ p with arrivals := ar :: p.arrivals } : Population).Orderly) :
    ({ p with arrivals := ar :: p.arrivals } : Population).Sound := by
  have absent : ∀ {x r}, p.rosters.get? x = some r → r.get? ar.member.id = none := fun isHeld =>
    Option.eq_none_iff_forall_ne_some.2 fun _ here => fresh (.member isHeld here)
  refine ⟨orderly, h.attached, h.settled, h.lone, List.forall_mem_cons.2 ⟨?_, ?_⟩,
    List.pairwise_cons.2 ⟨fun br mem same => fresh (.arrival mem same.symm), h.distinct⟩⟩
  · constructor
    · exact absent
    · intro s holds
      obtain rfl := Holds.unique (p := p) holds (holds_of_held held)
      exact absent held
    · -- a sink that is there is no arrival
      intro source cr later same
      obtain ⟨s, found, _⟩ := anchored source
      rcases List.mem_cons.1 later with rfl | later
      · exact fresh (.member held (same.symm ▸ found))
      · rw [← same, (h.awaits cr later).absent held] at found
        cases found
    · intro source s t holds found
      obtain ⟨t', found', kind⟩ := anchored source
      obtain rfl := Holds.unique (p := p) holds (holds_of_held held)
      rw [found'] at found
      obtain rfl := Option.some.inj found
      exact kind
  · intro br before
    have awaited := h.awaits br before
    refine ⟨awaited.absent, awaited.absentThere, fun source => List.forall_mem_cons.2 ⟨?_, ?_⟩,
      awaited.anchor⟩
    · exact fun same => fresh (.sink before source same.symm)
    · exact awaited.sinkMade source

/-- The roster of a context that is held changes. -/
theorem Sound.put {p : Population} (h : p.Sound) {x : Id} {r r' : Roster} {rest : List Arrival}
    (orderly : ({ p with arrivals := rest, rosters := p.rosters.put x r' } : Population).Orderly)
    (held : p.rosters.get? x = some r) (fewer : rest.Sublist p.arrivals) (attached : r'.Attached)
    (settled : r'.Settled) (comes : ∀ {id m}, r'.get? id = some m → p.Comes rest x id m) :
    ({ p with arrivals := rest, rosters := p.rosters.put x r' } : Population).Sound := by
  refine h.of_comes orderly fewer (fun later _ => ?_) fun holds => ?_
  · rcases Table.get?_put_cases later with ⟨rfl, _⟩ | before
    · exact ⟨r, held⟩
    · exact ⟨_, before⟩
  · rcases holds.of_put rfl rfl with ⟨rfl, rfl⟩ | before
    · exact .inr ⟨attached, settled, comes⟩
    · exact .inl before

/-- A context is not held any longer. -/
theorem Sound.detach {p : Population} (h : p.Sound) {x : Id} (orderly : (p.detach x).Orderly) :
    (p.detach x).Sound := by
  refine h.of_comes orderly (List.Sublist.refl _)
    (fun held _ => ⟨_, Table.get?_of_get?_erase held⟩) fun holds => ?_
  rcases holds.of_detach with ⟨rfl, rfl⟩ | before
  · refine .inr ⟨Roster.attached_nil, Roster.settled_nil, ?_⟩
    rintro _ _ ⟨⟩
  · exact .inl before

/-- **Soundness is kept by every step** that hands out no identity that is in use. -/
theorem Sound.step {p q : Population} {c : Change} (h : p.Sound) (step : Step p c q)
    (fresh : ∀ id ∈ c.mints, ¬ p.Uses id) : q.Sound := by
  have orderly := h.toOrderly.step step
  cases step with
  | limited limits =>
    exact h.of_comes orderly (List.Sublist.refl _) (fun held _ => ⟨_, held⟩) .inl
  | opened x assigned room =>
    refine h.of_comes orderly (List.Sublist.refl _)
      (fun held => (Step.opened x assigned room).held held) fun holds => ?_
    rcases holds.of_put rfl rfl with ⟨rfl, rfl⟩ | before
    · refine .inr ⟨Roster.attached_nil, Roster.settled_nil, ?_⟩
      rintro _ _ ⟨⟩
    · exact .inl before
  | closed x empty => exact h.detach orderly
  | released x r isHeld => exact h.detach orderly
  | begun ar assigned new room r held anchored =>
    exact h.begin (fresh _ (List.mem_singleton_self _)) held anchored orderly
  | dropped ar rest latest =>
    exact h.of_comes orderly (latest ▸ List.sublist_cons_self ..) (fun held _ => ⟨_, held⟩) .inl
  | published ar rest m r latest held ready welcome =>
    obtain ⟨attached, settled, comes⟩ := h.welcome latest (holds_of_held held) ready welcome
    exact h.put orderly held (latest ▸ List.sublist_cons_self ..) attached settled comes
  | stranded ar rest m r latest gone kept ready welcome =>
    obtain ⟨attached, settled, comes⟩ :=
      h.welcome latest (holds_of_released gone kept) ready welcome
    refine h.of_comes orderly (latest ▸ List.sublist_cons_self ..) (fun held _ => ⟨_, held⟩)
      fun holds => ?_
    rcases holds.of_putDetached rfl rfl with ⟨rfl, rfl⟩ | before
    · exact .inr ⟨attached, settled, comes⟩
    · exact .inl before
  | tornDown x id r held =>
    have attached := h.attached_of_held held
    refine h.put orderly held (List.Sublist.refl _) (attached.tearDown id)
      ((h.settled (holds_of_held held)).tearDown attached.sorted id) fun found => ?_
    obtain ⟨n, here, who⟩ := exists_of_people (r := r)
      (.inr (by rw [Roster.people_tearDown attached.sorted])) found
    exact .inl ⟨r, n, holds_of_held held, here, who⟩
  | left x r m held here free =>
    have attached := h.attached_of_held held
    refine h.put orderly held (List.Sublist.refl _) (attached.leave here free)
      ((h.settled (holds_of_held held)).leave attached.sorted here) fun found => ?_
    obtain ⟨n, here, who⟩ := exists_of_people (people_leave_cases attached.sorted m _) found
    exact .inl ⟨r, n, holds_of_held held, here, who⟩

/-- What is handed out on the way of a run: identities that were not in use at its beginning, and
none of them twice. -/
structure Spares (p : Population) (cs : List Change) : Prop where
  unused : ∀ id ∈ minted cs, ¬ p.Uses id
  once : (minted cs).Nodup

theorem Spares.of_append {p : Population} {cs ds : List Change} (h : p.Spares (cs ++ ds)) :
    p.Spares cs where
  unused id mem := h.unused id (minted_append cs ds ▸ List.mem_append_left _ mem)
  once := by
    have once := h.once
    rw [minted_append] at once
    exact (List.nodup_append.1 once).1

/-- What is handed out by the last step of a run is not in use when it is handed out. -/
theorem Orderly.unused_last {p q : Population} {cs : List Change} {c : Change} (h : p.Orderly)
    (run : Run p cs q) (spares : p.Spares (cs ++ [c])) : ∀ id ∈ c.mints, ¬ q.Uses id := by
  intro id mem uses
  have once := spares.once
  rw [minted_snoc] at once
  rcases h.uses_run run uses with before | sooner
  · exact spares.unused id (minted_snoc cs c ▸ List.mem_append_right _ mem) before
  · exact (List.nodup_append.1 once).2.2 id sooner id mem rfl

/-- Soundness is kept by every run that spares the identities in use. -/
theorem Sound.run {p q : Population} {cs : List Change} (h : p.Sound) (run : Run p cs q)
    (spares : p.Spares cs) : q.Sound := by
  induction run with
  | nil => exact h
  | snoc run step ih =>
    exact (ih spares.of_append).step step (h.toOrderly.unused_last run spares)

end Population

end CastHub
