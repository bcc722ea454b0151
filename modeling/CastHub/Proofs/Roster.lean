import CastHub.Proofs.Member
import CastHub.Proofs.Table
/-!
# Rosters

The members of one context. What contexts do to agents is done here to members, so that the
sessions and their news are out of the way.

* `Roster.Filed` : everybody is entered under its own identity, and has a channel;
* `Roster.Attached` : and every source hangs on a sink of the same roster, on the sink's channel;
* `Roster.Settled` : a sink is doomed exactly if it is to be destroyed and has no source left.

Both survive teardown (`tearDown`), departure (`leave`) and arrival (`put` of a welcome member).
-/

namespace CastHub

/-- The members of a context, by identity. -/
abbrev Roster := Table Id Member

namespace Roster

/-! ## What a roster knows -/

/-- Whether a source is attached to a given sink. -/
def hasSourceOf (r : Roster) (sink : Id) : Bool := r.any fun e => e.2.isSourceOf sink

/-- The identities of all sources, rising. -/
def sources (r : Roster) : List Id := (r.filter (·.2.role = .source)).map (·.1)

/-- The members as they were when they were new. -/
def people (r : Roster) : Roster := r.mapValues Member.who

theorem hasSourceOf_people (r : Roster) (sink : Id) :
    r.people.hasSourceOf sink = r.hasSourceOf sink := by
  unfold hasSourceOf people Table.mapValues
  rw [List.any_map]
  rfl

theorem get?_people (r : Roster) (id : Id) : r.people.get? id = (r.get? id).map Member.who :=
  Table.get?_mapValues ..

theorem sorted_of_people {r r' : Roster} (h : r.Sorted) (same : r'.people = r.people) :
    r'.Sorted := by
  have sorted : r.people.Sorted := Table.sorted_mapValues.2 h
  rw [← same] at sorted
  exact Table.sorted_mapValues.1 sorted

/-- Whoever is on the one roster is on the other, perhaps further in its teardown. -/
theorem exists_of_people {r r' : Roster} (same : r'.people = r.people) {id : Id} {m' : Member}
    (there : r'.get? id = some m') : ∃ m, r.get? id = some m ∧ m.who = m'.who := by
  have image : r.people.get? id = some m'.who := by
    rw [← same, get?_people, there]
    rfl
  rw [get?_people] at image
  exact Option.map_eq_some_iff.1 image

theorem hasSourceOf_of_people {r r' : Roster} (same : r'.people = r.people) (sink : Id) :
    r'.hasSourceOf sink = r.hasSourceOf sink := by
  rw [← hasSourceOf_people, same, hasSourceOf_people]

theorem hasSourceOf_iff {r : Roster} {sink : Id} (h : r.Sorted) :
    r.hasSourceOf sink = true ↔ ∃ id m, r.get? id = some m ∧ m.isSourceOf sink = true := by
  unfold hasSourceOf
  rw [List.any_eq_true]
  constructor
  · rintro ⟨⟨id, m⟩, mem, attached⟩
    exact ⟨id, m, Table.get?_of_mem h mem, attached⟩
  · rintro ⟨id, m, found, attached⟩
    exact ⟨(id, m), Table.mem_of_get? found, attached⟩

theorem role_of_mem_sources {r : Roster} {id : Id} (h : r.Sorted) (mem : id ∈ r.sources) :
    ∃ m, r.get? id = some m ∧ m.role = .source := by
  obtain ⟨⟨_, m⟩, entry, rfl⟩ := List.mem_map.1 mem
  obtain ⟨entry, source⟩ := List.mem_filter.1 entry
  exact ⟨m, Table.get?_of_mem h entry, of_decide_eq_true source⟩

/-! ## What becomes of the members -/

/-- Dooms several members. -/
def doomAll (r : Roster) (ids : List Id) : Roster :=
  ids.foldl (fun r id => r.update id Member.doom) r

/-- Marks a member for destruction. -/
def mark (r : Roster) (id : Id) : Roster := r.update id fun m => { m with destroying := true }

/-- Begins a teardown: a sink that has sources is only marked, and all sources are doomed. -/
def tearDown (r : Roster) (id : Id) : Roster :=
  match r.get? id with
  | none => r
  | some m =>
    match m.role with
    | .source => r.doomAll [id]
    | .sink =>
      let r := r.mark id
      r.doomAll (if r.hasSourceOf id then r.sources else [id])

/-- Dooms a sink if it has been waiting for that, and no source is left. -/
def settle (r : Roster) (sink : Id) : Roster :=
  match r.get? sink with
  | none => r
  | some m => if m.destroying ∧ ¬ r.hasSourceOf sink then r.doomAll [sink] else r

/-- Ends a teardown: the member leaves, and its sink may follow. -/
def leave (r : Roster) (m : Member) : Roster :=
  match m.role with
  | .source => settle (r.erase m.id) m.sink
  | .sink => r.erase m.id

theorem people_update {r : Roster} {id : Id} {f : Member → Member} (h : r.Sorted)
    (same : ∀ m, (f m).who = m.who) : people (r.update id f) = r.people := by
  unfold people
  rw [Table.mapValues_update (h := fun m => m) (fun m _ => same m)]
  unfold Table.update
  cases found : (Table.mapValues Member.who r).get? id with
  | none => rfl
  | some m => exact Table.put_self (Table.sorted_mapValues.2 h) found

theorem people_mark {r : Roster} (h : r.Sorted) (id : Id) : (r.mark id).people = r.people :=
  people_update h fun _ => rfl

theorem people_doomAll {r : Roster} (h : r.Sorted) (ids : List Id) :
    (r.doomAll ids).people = r.people := by
  induction ids generalizing r with
  | nil => rfl
  | cons id rest ih =>
    have same : people (r.update id Member.doom) = r.people := people_update h Member.who_doom
    show people (doomAll (r.update id Member.doom) rest) = r.people
    rw [ih (sorted_of_people h same), same]

/-- Teardown changes nobody. -/
theorem people_tearDown {r : Roster} (h : r.Sorted) (id : Id) :
    (r.tearDown id).people = r.people := by
  unfold tearDown
  split
  · rfl
  · split
    · exact people_doomAll h _
    · have same := people_mark h id
      rw [people_doomAll (sorted_of_people h same), same]

theorem people_settle {r : Roster} (h : r.Sorted) (sink : Id) :
    (r.settle sink).people = r.people := by
  unfold settle
  split
  · rfl
  · split
    · exact people_doomAll h _
    · rfl

/-- Whoever leaves, the others remain. -/
theorem people_leave {r : Roster} (h : r.Sorted) (m : Member) :
    (r.leave m).people = r.people.erase m.id := by
  have erased : people (r.erase m.id) = r.people.erase m.id := Table.mapValues_erase ..
  unfold leave
  split
  · rw [people_settle (Table.sorted_erase h), erased]
  · exact erased

theorem get?_mark (r : Roster) (id other : Id) :
    (r.mark id).get? other
      = if other = id then (r.get? other).map (fun m => { m with destroying := true })
        else r.get? other := by
  unfold mark
  exact Table.get?_update

theorem get?_doomAll (r : Roster) (ids : List Id) (id : Id) :
    (r.doomAll ids).get? id = if id ∈ ids then (r.get? id).map Member.doom else r.get? id := by
  induction ids generalizing r with
  | nil => simp [doomAll]
  | cons first rest ih =>
    show (doomAll (r.update first Member.doom) rest).get? id = _
    rw [ih, Table.get?_update]
    by_cases same : id = first
    · have twice : Member.doom ∘ Member.doom = Member.doom := funext Member.doom_doom
      simp [same, twice]
    · simp [same]

/-! ## Sources hang on sinks -/

/-- Every member is entered under its own identity, and has a channel. -/
structure Filed (r : Roster) : Prop where
  sorted : r.Sorted
  keyed : ∀ {id m}, r.get? id = some m → m.id = id ∧ id ≠ .unassigned
  channelled : ∀ {id m}, r.get? id = some m → m.channel ≠ .unassigned

/-- Besides, every source hangs on a sink of the roster, on the sink's channel. -/
structure Attached (r : Roster) : Prop extends Filed r where
  anchored : ∀ {id m}, r.get? id = some m → m.role = .source →
    ∃ s, r.get? m.sink = some s ∧ s.role = .sink ∧ s.channel = m.channel

theorem filed_nil : Filed [] where
  sorted := List.Pairwise.nil
  keyed h := by cases h
  channelled h := by cases h

theorem attached_nil : Attached [] where
  toFiled := filed_nil
  anchored h := by cases h

/-- How members are filed is a matter of who they are. -/
theorem Filed.of_people {r r' : Roster} (h : r.Filed) (same : r'.people = r.people) :
    r'.Filed := by
  constructor
  · exact sorted_of_people h.sorted same
  · intro id m there
    obtain ⟨n, here, who⟩ := exists_of_people same there
    have keyed := h.keyed here
    rw [← Member.id_who, who] at keyed
    exact keyed
  · intro id m there
    obtain ⟨n, here, who⟩ := exists_of_people same there
    have channelled := h.channelled here
    rw [← Member.channel_who, who] at channelled
    exact channelled

theorem Filed.tearDown {r : Roster} (h : r.Filed) (id : Id) : (r.tearDown id).Filed :=
  h.of_people (people_tearDown h.sorted id)

theorem Filed.erase {r : Roster} (h : r.Filed) (gone : Id) : Filed (r.erase gone) where
  sorted := Table.sorted_erase h.sorted
  keyed there := h.keyed (Table.get?_of_get?_erase there)
  channelled there := h.channelled (Table.get?_of_get?_erase there)

theorem Filed.leave {r : Roster} (h : r.Filed) (m : Member) : (r.leave m).Filed := by
  refine (h.erase m.id).of_people ?_
  rw [people_leave h.sorted]
  exact (Table.mapValues_erase ..).symm

theorem Filed.put {r : Roster} (h : r.Filed) {m : Member} (assigned : m.id ≠ .unassigned)
    (channelled : m.channel ≠ .unassigned) : Filed (Table.put m.id m r) where
  sorted := Table.sorted_put h.sorted
  keyed there := by
    rcases Table.get?_put_cases there with ⟨rfl, rfl⟩ | here
    · exact ⟨rfl, assigned⟩
    · exact h.keyed here
  channelled there := by
    rcases Table.get?_put_cases there with ⟨rfl, rfl⟩ | here
    · exact channelled
    · exact h.channelled here

/-- Whether sources hang on sinks is a matter of who is there. -/
theorem Attached.of_people {r r' : Roster} (h : r.Attached) (same : r'.people = r.people) :
    r'.Attached := by
  refine ⟨h.toFiled.of_people same, fun {id m} there source => ?_⟩
  obtain ⟨n, here, who⟩ := exists_of_people same there
  have alike : n.role = m.role ∧ n.sink = m.sink ∧ n.channel = m.channel := by
    rw [← Member.role_who, ← Member.sink_who, ← Member.channel_who, who]
    exact ⟨rfl, rfl, rfl⟩
  obtain ⟨s, sinkHere, isSink, channel⟩ := h.anchored here (alike.1.trans source)
  obtain ⟨t, sinkThere, whoSink⟩ := exists_of_people same.symm sinkHere
  refine ⟨t, alike.2.1 ▸ sinkThere, ?_, ?_⟩
  · rw [← Member.role_who, whoSink, Member.role_who, isSink]
  · rw [← Member.channel_who, whoSink, Member.channel_who, channel, alike.2.2]

theorem Attached.tearDown {r : Roster} (h : r.Attached) (id : Id) : (r.tearDown id).Attached :=
  h.of_people (people_tearDown h.sorted id)

/-- A member that is no sink with sources can go. -/
theorem Attached.erase {r : Roster} (h : r.Attached) {m : Member}
    (free : r.hasSourceOf m.id = false) : Attached (r.erase m.id) := by
  refine ⟨h.toFiled.erase m.id, fun {id n} there source => ?_⟩
  have before := Table.get?_of_get?_erase there
  obtain ⟨s, here, isSink, channel⟩ := h.anchored before source
  refine ⟨s, ?_, isSink, channel⟩
  rw [Table.get?_erase, if_neg, here]
  intro gone
  have attached : r.hasSourceOf m.id = true :=
    (hasSourceOf_iff h.sorted).2 ⟨id, n, before, Member.isSourceOf_iff.2 ⟨source, gone⟩⟩
  rw [free] at attached
  cases attached

/-- No source hangs on a source. -/
theorem Attached.hasSourceOf_source {r : Roster} (h : r.Attached) {m : Member}
    (here : r.get? m.id = some m) (source : m.role = .source) : r.hasSourceOf m.id = false := by
  rw [Bool.eq_false_iff]
  intro attached
  obtain ⟨id, n, there, isSource⟩ := (hasSourceOf_iff h.sorted).1 attached
  obtain ⟨isSource, sink⟩ := Member.isSourceOf_iff.1 isSource
  obtain ⟨s, found, isSink, _⟩ := h.anchored there isSource
  rw [sink, here] at found
  obtain rfl := Option.some.inj found
  rw [source] at isSink
  cases isSink

theorem Attached.leave {r : Roster} (h : r.Attached) {m : Member} (here : r.get? m.id = some m)
    (free : m.role = .sink → r.hasSourceOf m.id = false) : (r.leave m).Attached := by
  have free : r.hasSourceOf m.id = false := by
    cases role : m.role with
    | sink => exact free role
    | source => exact h.hasSourceOf_source here role
  have erased := h.erase free
  refine erased.of_people ?_
  rw [people_leave h.sorted]
  exact (Table.mapValues_erase ..).symm

/-- A new member can come, if it is a sink or the sink that it wants is there. -/
theorem Attached.put {r : Roster} (h : r.Attached) {m : Member} (new : r.get? m.id = none)
    (assigned : m.id ≠ .unassigned) (channelled : m.channel ≠ .unassigned)
    (anchored : m.role = .source →
      ∃ s, r.get? m.sink = some s ∧ s.role = .sink ∧ s.channel = m.channel) :
    Attached (Table.put m.id m r) := by
  refine ⟨h.toFiled.put assigned channelled, fun {id n} there source => ?_⟩
  rcases Table.get?_put_cases there with ⟨rfl, rfl⟩ | here
  · obtain ⟨s, found, rest⟩ := anchored source
    exact ⟨s, Table.get?_put_of_new new found, rest⟩
  · obtain ⟨s, found, rest⟩ := h.anchored here source
    exact ⟨s, Table.get?_put_of_new new found, rest⟩

/-! ## Sinks wait for their sources -/

/-- A sink is doomed exactly if it is to be destroyed and no source is attached to it. -/
def Settled (r : Roster) : Prop :=
  ∀ ⦃id m⦄, r.get? id = some m → m.role = .sink →
    (m.doomed = true ↔ m.destroying = true ∧ r.hasSourceOf id = false)

theorem settled_nil : Settled [] := fun _ _ h => by cases h

/-- A sink that is alive or has sources is not doomed. -/
theorem Settled.doomed_eq_false {r : Roster} (h : r.Settled) {id : Id} {m : Member}
    (here : r.get? id = some m) (isSink : m.role = .sink)
    (waits : m.destroying = false ∨ r.hasSourceOf id = true) : m.doomed = false := by
  rw [Bool.eq_false_iff]
  intro doomed
  obtain ⟨destroying, free⟩ := (h here isSink).1 doomed
  rcases waits with waits | waits
  · rw [waits] at destroying
    cases destroying
  · rw [waits] at free
    cases free

theorem Settled.tearDown {r : Roster} (h : r.Settled) (sorted : r.Sorted) (id : Id) :
    (r.tearDown id).Settled := by
  intro k m there isSink
  have same := hasSourceOf_of_people (people_tearDown sorted id) k
  rw [same]
  unfold Roster.tearDown at there
  split at there
  · exact h there isSink
  · rename_i n here
    split at there
    · -- a source is doomed, which no sink notices
      rename_i source
      rw [get?_doomAll] at there
      split at there
      · rename_i mem
        obtain rfl := List.mem_singleton.1 mem
        rw [here] at there
        obtain rfl := Option.some.inj there
        rw [Member.role_doom, source] at isSink
        cases isSink
      · exact h there isSink
    · rename_i sinkHere
      have marked := people_mark sorted id
      simp only [get?_doomAll, hasSourceOf_of_people marked] at there
      by_cases attached : r.hasSourceOf id = true
      · -- the sink is only marked; no sink is among the sources that are doomed
        rw [if_pos attached] at there
        have notSource : k ∉ (r.mark id).sources := by
          intro mem
          obtain ⟨s, found, source⟩ := role_of_mem_sources (sorted_of_people sorted marked) mem
          rw [if_pos mem, found] at there
          obtain rfl := Option.some.inj there
          rw [Member.role_doom, source] at isSink
          cases isSink
        rw [if_neg notSource, get?_mark] at there
        split at there
        · rename_i isIt
          subst isIt
          rw [here] at there
          obtain rfl := Option.some.inj there
          rw [attached]
          simpa using h.doomed_eq_false here sinkHere (.inr attached)
        · exact h there isSink
      · -- nobody hangs on the sink, so it is doomed at once
        rw [if_neg attached, get?_mark] at there
        split at there
        · rename_i mem
          obtain rfl := List.mem_singleton.1 mem
          rw [if_pos rfl, here] at there
          obtain rfl := Option.some.inj there
          simp [Member.doomed_doom, Member.destroying_doom, attached]
        · rename_i other
          rw [if_neg (by simpa using other)] at there
          exact h there isSink

/-- Whoever goes, no sink gains a source. -/
theorem hasSourceOf_of_erase {r : Roster} (sorted : r.Sorted) {gone sink : Id}
    (h : hasSourceOf (r.erase gone) sink = true) : r.hasSourceOf sink = true := by
  obtain ⟨id, n, there, attached⟩ := (hasSourceOf_iff (Table.sorted_erase sorted)).1 h
  exact (hasSourceOf_iff sorted).2 ⟨id, n, Table.get?_of_get?_erase there, attached⟩

/-- A member that is no source of a sink does not matter to it. -/
theorem hasSourceOf_erase {r : Roster} (sorted : r.Sorted) {m : Member} {sink : Id}
    (here : r.get? m.id = some m) (other : m.isSourceOf sink = false) :
    hasSourceOf (r.erase m.id) sink = r.hasSourceOf sink := by
  rw [Bool.eq_iff_iff]
  refine ⟨hasSourceOf_of_erase sorted, fun h => ?_⟩
  obtain ⟨id, n, there, attached⟩ := (hasSourceOf_iff sorted).1 h
  refine (hasSourceOf_iff (Table.sorted_erase sorted)).2 ⟨id, n, ?_, attached⟩
  rw [Table.get?_erase, if_neg, there]
  rintro rfl
  rw [here] at there
  obtain rfl := Option.some.inj there
  rw [other] at attached
  cases attached

/-- When a member goes, doomed sinks remain settled, and so do all sinks but its own. -/
theorem Settled.erase {r : Roster} (h : r.Settled) (sorted : r.Sorted) {m : Member}
    (here : r.get? m.id = some m) {id : Id} {n : Member}
    (there : Table.get? (r.erase m.id) id = some n) (isSink : n.role = .sink) :
    (n.doomed = true → n.destroying = true ∧ hasSourceOf (r.erase m.id) id = false) ∧
    (m.isSourceOf id = false → n.destroying = true → hasSourceOf (r.erase m.id) id = false →
      n.doomed = true) := by
  have settled := h (Table.get?_of_get?_erase there) isSink
  constructor
  · intro doomed
    obtain ⟨destroying, free⟩ := settled.1 doomed
    refine ⟨destroying, ?_⟩
    rw [Bool.eq_false_iff] at free ⊢
    exact fun attached => free (hasSourceOf_of_erase sorted attached)
  · intro other destroying free
    rw [hasSourceOf_erase sorted here other] at free
    exact settled.2 ⟨destroying, free⟩

/-- What settling does to a member: it dooms the sink if that one waits for nothing else, and leaves
all others alone. -/
theorem settle_cases {r : Roster} {sink id : Id} {m : Member}
    (there : (r.settle sink).get? id = some m) :
    (r.get? id = some m ∧
        (id = sink → ¬ (m.destroying = true ∧ ¬ r.hasSourceOf id = true))) ∨
      (id = sink ∧ ∃ o, r.get? id = some o ∧
        o.destroying = true ∧ r.hasSourceOf id = false ∧ m = o.doom) := by
  unfold settle at there
  split at there
  · rename_i missing
    refine .inl ⟨there, fun isIt => ?_⟩
    rw [isIt, missing] at there
    cases there
  · rename_i s found
    split at there
    · rename_i waiting
      rw [get?_doomAll] at there
      split at there
      · rename_i mem
        obtain rfl := List.mem_singleton.1 mem
        rw [found] at there
        exact .inr ⟨rfl, s, found, waiting.1, Bool.eq_false_iff.2 waiting.2,
          (Option.some.inj there).symm⟩
      · rename_i other
        exact .inl ⟨there, fun isIt => absurd (List.mem_singleton.2 isIt) other⟩
    · rename_i busy
      refine .inl ⟨there, fun isIt => ?_⟩
      subst isIt
      rw [found] at there
      obtain rfl := Option.some.inj there
      exact busy

/-- If all sinks but one are settled, and that one is not doomed too early, all are settled once
that one is. -/
theorem settled_settle {r : Roster} (sorted : r.Sorted) {sink : Id}
    (h : ∀ {id n}, r.get? id = some n → n.role = .sink →
      (n.doomed = true → n.destroying = true ∧ r.hasSourceOf id = false) ∧
      (id ≠ sink → n.destroying = true → r.hasSourceOf id = false → n.doomed = true)) :
    (settle r sink).Settled := by
  intro id n there isSink
  rw [hasSourceOf_of_people (people_settle sorted sink)]
  rcases settle_cases there with ⟨here, busy⟩ | ⟨_, o, _, destroying, free, rfl⟩
  · -- a sink that is left alone is settled, unless it is the one that has been waiting
    refine ⟨(h here isSink).1, ?_⟩
    rintro ⟨destroying, free⟩
    by_cases isIt : id = sink
    · exact absurd ⟨destroying, by simp [free]⟩ (busy isIt)
    · exact (h here isSink).2 isIt destroying free
  · simp [Member.doomed_doom, Member.destroying_doom destroying, free]

theorem Settled.leave {r : Roster} (h : r.Settled) (sorted : r.Sorted) {m : Member}
    (here : r.get? m.id = some m) : (r.leave m).Settled := by
  unfold Roster.leave
  split
  · refine settled_settle (Table.sorted_erase sorted) fun {id n} there isSink => ?_
    obtain ⟨early, late⟩ := h.erase sorted here there isSink
    refine ⟨early, fun other => late ?_⟩
    simp [Member.isSourceOf, Ne.symm other]
  · rename_i role
    intro id n there isSink
    obtain ⟨early, late⟩ := h.erase sorted here there isSink
    refine ⟨early, ?_⟩
    rintro ⟨destroying, free⟩
    exact late (by simp [Member.isSourceOf, role]) destroying free

/-- A new member finds its sink alive, so that no sink is surprised by it. -/
theorem Settled.put {r : Roster} (h : r.Settled) (attached : r.Attached) {m : Member}
    (new : r.get? m.id = none) (alive : m.destroying = false ∧ m.doomed = false)
    (welcome : m.role = .source → ∃ s, r.get? m.sink = some s ∧ s.destroying = false) :
    Settled (Table.put m.id m r) := by
  have sorted : Table.Sorted (Table.put m.id m r) := Table.sorted_put attached.sorted
  intro id n there isSink
  by_cases isIt : id = m.id
  · rw [Table.get?_put, if_pos isIt] at there
    obtain rfl := Option.some.inj there
    simp [alive.1, alive.2]
  · rw [Table.get?_put, if_neg isIt] at there
    by_cases own : m.isSourceOf id = true
    · -- the sink of the new source is alive, so it waits for nothing
      obtain ⟨source, rfl⟩ := Member.isSourceOf_iff.1 own
      obtain ⟨s, found, here⟩ := welcome source
      rw [there] at found
      obtain rfl := Option.some.inj found
      simp [here, h.doomed_eq_false there isSink (.inl here)]
    · have same : hasSourceOf (Table.put m.id m r) id = r.hasSourceOf id := by
        rw [Bool.eq_iff_iff, hasSourceOf_iff sorted, hasSourceOf_iff attached.sorted]
        constructor
        · rintro ⟨k, n, found, source⟩
          rcases Table.get?_put_cases found with ⟨_, rfl⟩ | before
          · exact absurd source own
          · exact ⟨k, n, before, source⟩
        · rintro ⟨k, n, found, source⟩
          exact ⟨k, n, Table.get?_put_of_new new found, source⟩
      rw [same]
      exact h there isSink

end Roster

end CastHub
