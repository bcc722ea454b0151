import CastHub.Proofs.Teardown
/-!
# Who has to go

A member that is doomed will bid its context farewell. What is known of such members is said here of
rosters and populations, without the events that carry the farewells.

* `Roster.Prompt` : sources do not wait. A source is doomed as soon as it or its sink is to be
  destroyed; so if nobody is doomed, nobody is to be destroyed (`Roster.Prompt.alive`).
* `Population.Dooms` : somebody is doomed, and so it remains until it leaves
  (`Population.Sound.dooms_run`).
* `Population.Parts` : what a farewell does to a population, and `Population.Dwindles` : what any
  number of farewells does. Nobody comes, living sinks stay, and nobody leaves an empty context
  behind.
-/

namespace CastHub

/-- Somebody's farewell to its context. -/
structure Farewell where
  context : Id
  agent : Id
  role : Role
deriving DecidableEq

namespace Roster

/-! ## Sources do not wait -/

/-- A source is doomed as soon as it or its sink is to be destroyed. -/
def Prompt (r : Roster) : Prop :=
  ∀ ⦃id m⦄, r.get? id = some m → m.role = .source →
    (m.destroying = true ∨ ∃ s, r.get? m.sink = some s ∧ s.destroying = true) → m.doomed = true

theorem prompt_nil : Prompt [] := fun _ _ h => by cases h

/-- If nobody is doomed, then nobody is to be destroyed: a sink would be waiting for a source, and
sources do not wait. -/
theorem Prompt.alive {r : Roster} (h : r.Prompt) (attached : r.Attached) (settled : r.Settled)
    (spared : ∀ ⦃id m⦄, r.get? id = some m → m.doomed = false) {id : Id} {m : Member}
    (here : r.get? id = some m) : m.destroying = false := by
  rw [Bool.eq_false_iff]
  intro destroying
  have alive := spared here
  cases role : m.role with
  | source =>
    rw [h here role (.inl destroying)] at alive
    cases alive
  | sink =>
    have waits : r.hasSourceOf id = true := by
      by_contra free
      have doomed := (settled here role).2 ⟨destroying, Bool.eq_false_iff.2 free⟩
      rw [alive] at doomed
      cases doomed
    obtain ⟨k, n, there, hangs⟩ := (hasSourceOf_iff attached.sorted).1 waits
    obtain ⟨source, sink⟩ := Member.isSourceOf_iff.1 hangs
    have doomed := h there source (.inr ⟨m, sink ▸ here, destroying⟩)
    rw [spared there] at doomed
    cases doomed

/-- A doomed member is to be destroyed, if it is a sink. -/
theorem Settled.destroying {r : Roster} (h : r.Settled) {id : Id} {m : Member}
    (here : r.get? id = some m) (isSink : m.role = .sink) (doomed : m.doomed = true) :
    m.destroying = true := ((h here isSink).1 doomed).1

theorem mem_sources {r : Roster} {id : Id} {m : Member} (here : r.get? id = some m)
    (source : m.role = .source) : id ∈ r.sources := by
  unfold sources
  apply List.mem_map.2
  refine ⟨(id, m), ?_, rfl⟩
  apply List.mem_filter.2
  exact ⟨Table.mem_of_get? here, decide_eq_true source⟩

/-- A sink hangs on nobody, so it is nobody's source. -/
theorem Attached.isSink {r : Roster} (h : r.Attached) {id : Id} {m : Member}
    (here : r.get? id = some m) (source : m.role = .source) :
    ∃ s, r.get? m.sink = some s ∧ s.role = .sink ∧ m.sink ≠ id := by
  obtain ⟨s, found, isSink, _⟩ := h.anchored here source
  refine ⟨s, found, isSink, ?_⟩
  rintro rfl
  rw [here] at found
  obtain rfl := Option.some.inj found
  rw [source] at isSink
  cases isSink

/-- Where somebody is, a sink is. -/
theorem Attached.exists_sink {r : Roster} (h : r.Attached) (someone : r ≠ []) :
    ∃ id m, r.get? id = some m ∧ m.role = .sink := by
  obtain ⟨⟨id, m⟩, mem⟩ := List.exists_mem_of_ne_nil r someone
  have here : r.get? id = some m := Table.get?_of_mem h.sorted mem
  cases role : m.role with
  | sink => exact ⟨id, m, here, role⟩
  | source =>
    obtain ⟨s, found, isSink, _⟩ := h.isSink here role
    exact ⟨m.sink, s, found, isSink⟩

/-- When a source is torn down, the others do not notice. -/
theorem Prompt.doom_source {r : Roster} (h : r.Prompt) (attached : r.Attached) {id : Id}
    {n : Member} (here : r.get? id = some n) (source : n.role = .source) :
    Prompt (r.doomAll [id]) := by
  intro k m there isSource reason
  rw [get?_doomAll] at there
  split at there
  · obtain ⟨o, _, rfl⟩ := Option.map_eq_some_iff.1 there
    exact o.doomed_doom
  · apply h there isSource
    refine reason.imp_right ?_
    rintro ⟨s, found, destroying⟩
    -- its sink is not the source that was doomed
    obtain ⟨t, before, isSink, _⟩ := attached.anchored there isSource
    have other : m.sink ≠ id := by
      rintro rfl
      rw [here] at before
      obtain rfl := Option.some.inj before
      rw [source] at isSink
      cases isSink
    rw [get?_doomAll, if_neg (by simpa using other)] at found
    exact ⟨s, found, destroying⟩

theorem Prompt.tearDown {r : Roster} (h : r.Prompt) (attached : r.Attached) (id : Id) :
    (r.tearDown id).Prompt := by
  unfold Roster.tearDown
  split
  · exact h
  · rename_i n here
    split
    · rename_i source
      exact h.doom_source attached here source
    · rename_i isSink
      have marked := people_mark attached.sorted id
      intro k m there source reason
      simp only [hasSourceOf_of_people marked, get?_doomAll] at there reason
      by_cases waits : r.hasSourceOf id = true
      · -- every source is doomed now
        rw [if_pos waits] at there
        split at there
        · obtain ⟨o, _, rfl⟩ := Option.map_eq_some_iff.1 there
          exact o.doomed_doom
        · exact absurd (mem_sources there source) ‹_›
      · -- nobody hangs on the sink that is doomed
        rw [if_neg waits] at there reason
        have apart : ∀ {j : Id}, j ≠ id → (if j ∈ [id] then
            ((r.mark id).get? j).map Member.doom else (r.mark id).get? j) = r.get? j := by
          intro j other
          rw [if_neg (by simpa using other), get?_mark, if_neg other]
        have other : k ≠ id := by
          rintro rfl
          have same : ∃ o, r.get? k = some o ∧ m.role = o.role := by
            rw [if_pos (List.mem_singleton_self _), get?_mark, if_pos rfl, here] at there
            obtain rfl := Option.some.inj there
            exact ⟨n, here, Member.role_doom _⟩
          obtain ⟨o, found, role⟩ := same
          rw [here] at found
          obtain rfl := Option.some.inj found
          rw [role, isSink] at source
          cases source
        rw [apart other] at there
        apply h there source
        refine reason.imp_right ?_
        rintro ⟨s, found, destroying⟩
        have elsewhere : m.sink ≠ id := by
          intro own
          apply waits
          exact (hasSourceOf_iff attached.sorted).2
            ⟨k, m, there, Member.isSourceOf_iff.2 ⟨source, own⟩⟩
        rw [apart elsewhere] at found
        exact ⟨s, found, destroying⟩

theorem Prompt.settle {r : Roster} (h : r.Prompt) (sink : Id) : (r.settle sink).Prompt := by
  intro id m there source reason
  -- settling makes nobody a member that is to be destroyed
  have before : ∀ {k n}, (r.settle sink).get? k = some n → n.destroying = true →
      ∃ o, r.get? k = some o ∧ o.destroying = true := by
    intro k n found destroying
    rcases settle_cases found with ⟨same, _⟩ | ⟨_, o, same, was, _⟩
    · exact ⟨n, same, destroying⟩
    · exact ⟨o, same, was⟩
  rcases settle_cases there with ⟨here, _⟩ | ⟨_, o, _, _, _, rfl⟩
  · apply h here source
    refine reason.imp_right ?_
    rintro ⟨s, found, destroying⟩
    exact before found destroying
  · exact o.doomed_doom

theorem Prompt.erase {r : Roster} (h : r.Prompt) (gone : Id) : Prompt (r.erase gone) := by
  intro id m there source reason
  apply h (Table.get?_of_get?_erase there) source
  refine reason.imp_right ?_
  rintro ⟨s, found, destroying⟩
  exact ⟨s, Table.get?_of_get?_erase found, destroying⟩

theorem Prompt.leave {r : Roster} (h : r.Prompt) (m : Member) : (r.leave m).Prompt := by
  unfold Roster.leave
  split
  · exact (h.erase m.id).settle m.sink
  · exact h.erase m.id

/-- A new member is alive, and so is its sink. -/
theorem Prompt.put {r : Roster} (h : r.Prompt) {m : Member} (alive : m.destroying = false)
    (welcome : m.role = .source → ∃ s, r.get? m.sink = some s ∧ s.destroying = false) :
    Prompt (Table.put m.id m r) := by
  intro id n there source reason
  -- nobody is to be destroyed who was not before
  have before : ∀ {s}, Table.get? (Table.put m.id m r) n.sink = some s → s.destroying = true →
      r.get? n.sink = some s := by
    intro s found destroying
    rcases Table.get?_put_cases found with ⟨_, rfl⟩ | same
    · rw [alive] at destroying
      cases destroying
    · exact same
  rcases Table.get?_put_cases there with ⟨rfl, rfl⟩ | here
  · rcases reason with destroying | ⟨s, found, destroying⟩
    · rw [alive] at destroying
      cases destroying
    · obtain ⟨t, own, living⟩ := welcome source
      rw [before found destroying] at own
      obtain rfl := Option.some.inj own
      rw [living] at destroying
      cases destroying
  · apply h here source
    refine reason.imp_right ?_
    rintro ⟨s, found, destroying⟩
    exact ⟨s, before found destroying, destroying⟩

/-! ## Whom a teardown spares -/

/-- Other sinks do not notice that a sink is torn down. -/
theorem get?_tearDown_of_sink {r : Roster} (sorted : r.Sorted) {id k : Id} {n m : Member}
    (here : r.get? id = some n) (isSink : n.role = .sink) (there : r.get? k = some m)
    (alsoSink : m.role = .sink) (other : k ≠ id) : (r.tearDown id).get? k = some m := by
  have marked : Table.get? (r.mark id) k = some m := by rw [get?_mark, if_neg other, there]
  -- neither the sink that is torn down nor a source, so nobody who is doomed
  have spared : k ∉ if (r.mark id).hasSourceOf id = true then (r.mark id).sources else [id] := by
    intro mem
    split at mem
    · obtain ⟨o, found, source⟩ :=
        role_of_mem_sources (sorted_of_people sorted (people_mark sorted id)) mem
      rw [marked] at found
      obtain rfl := Option.some.inj found
      rw [alsoSink] at source
      cases source
    · exact other (List.mem_singleton.1 mem)
  unfold tearDown
  rw [here]
  simp only [isSink]
  rw [get?_doomAll, if_neg spared, marked]

/-- The sink that is torn down is to be destroyed. -/
theorem destroying_tearDown {r : Roster} {id : Id} {n : Member} (here : r.get? id = some n)
    (isSink : n.role = .sink) : ∃ m, (r.tearDown id).get? id = some m ∧ m.destroying = true := by
  unfold tearDown
  rw [here]
  simp only [isSink]
  -- whether it is doomed at once does not matter
  generalize (if (r.mark id).hasSourceOf id = true then (r.mark id).sources else [id]) = ids
  rw [get?_doomAll, get?_mark, if_pos rfl, here]
  split
  · exact ⟨Member.doom { n with destroying := true }, rfl, Member.destroying_doom rfl⟩
  · exact ⟨{ n with destroying := true }, rfl, rfl⟩

/-- Others who are alive do not notice that somebody leaves. -/
theorem get?_leave_of_alive {r : Roster} {m n : Member} {id : Id} (other : id ≠ m.id)
    (there : r.get? id = some n) (alive : n.destroying = false) :
    (r.leave m).get? id = some n := by
  have kept : Table.get? (r.erase m.id) id = some n := by
    rw [Table.get?_erase, if_neg other, there]
  unfold leave
  split
  · unfold settle
    split
    · exact kept
    · rename_i s found
      split
      · rename_i waiting
        rw [get?_doomAll, if_neg, kept]
        -- the sink that goes next is to be destroyed, and this one is not
        intro mem
        obtain rfl := List.mem_singleton.1 mem
        rw [kept] at found
        obtain rfl := Option.some.inj found
        rw [alive] at waiting
        exact absurd waiting.1 Bool.false_ne_true
      · exact kept
  · exact kept

/-- A source leaves its sink behind. -/
theorem Attached.leave_ne_nil {r : Roster} (h : r.Attached) {m : Member}
    (here : r.get? m.id = some m) (source : m.role = .source) : r.leave m ≠ [] := by
  obtain ⟨s, found, _, other⟩ := h.isSink here source
  have image : (r.leave m).people.get? m.sink = some s.who := by
    rw [people_leave h.sorted, Table.get?_erase, if_neg other, get?_people, found]
    rfl
  intro nobody
  rw [nobody] at image
  cases image

end Roster

namespace Population

/-! ## In all contexts -/

/-- In every context that is held, sources do not wait. -/
def Prompt (p : Population) : Prop := ∀ ⦃x r⦄, p.rosters.get? x = some r → r.Prompt

/-- One roster changes, and is prompt afterwards. -/
theorem Prompt.put {p q : Population} (h : p.Prompt) {x : Id} {r : Roster} (prompt : r.Prompt)
    (rosters : q.rosters = p.rosters.put x r) : q.Prompt := by
  intro y r' held
  rw [rosters] at held
  rcases Table.get?_put_cases held with ⟨_, rfl⟩ | before
  · exact prompt
  · exact h before

/-- A context is closed. -/
theorem Prompt.erase {p q : Population} (h : p.Prompt) {x : Id}
    (rosters : q.rosters = p.rosters.erase x) : q.Prompt := by
  intro y r' held
  rw [rosters] at held
  exact h (Table.get?_of_get?_erase held)

theorem Sound.prompt_step {p q : Population} {c : Change} (sound : p.Sound) (h : p.Prompt)
    (step : Step p c q) : q.Prompt := by
  cases step with
  | limited limits => exact h
  | opened x assigned room => exact h.put Roster.prompt_nil rfl
  | closed x empty => exact h.erase rfl
  | released x r held => exact h.erase rfl
  | begun ar assigned new room r held anchored => exact h
  | dropped ar rest latest => exact h
  | published ar rest m r latest held ready welcome =>
    have isNew := sound.new ar (latest ▸ List.mem_cons_self ..)
    have alive : m.destroying = false := by
      rw [ready.eq, ← isNew.new]
      rfl
    exact h.put ((h held).put alive welcome) rfl
  | stranded ar rest m r latest gone kept ready welcome => exact h
  | tornDown x id r held => exact h.put ((h held).tearDown (sound.attached_of_held held) id) rfl
  | left x r m held here free => exact h.put ((h held).leave m) rfl

theorem Sound.prompt_run {p q : Population} {cs : List Change} (sound : p.Sound) (h : p.Prompt)
    (run : Run p cs q) (spares : p.Spares cs) : q.Prompt := by
  induction run with
  | nil => exact h
  | snoc before step ih =>
    exact (sound.run before spares.of_append).prompt_step (ih spares.of_append) step

/-- If nobody is doomed in a context that is held, nobody is to be destroyed there. -/
theorem Sound.alive {p : Population} (sound : p.Sound) (h : p.Prompt) {x : Id} {r : Roster}
    (held : p.rosters.get? x = some r)
    (spared : ∀ ⦃id m⦄, r.get? id = some m → m.doomed = false) {id : Id} {m : Member}
    (here : r.get? id = some m) : m.destroying = false :=
  (h held).alive (sound.attached_of_held held) (sound.settled (holds_of_held held)) spared here

/-! ## Whoever bids farewell -/

/-- Somebody in a context that is held is doomed. -/
def Dooms (p : Population) (f : Farewell) : Prop :=
  ∃ r m, p.rosters.get? f.context = some r ∧ r.get? f.agent = some m ∧ m.role = f.role ∧
    m.doomed = true

/-- The member that is doomed is the one that its context has under its identity. -/
theorem Dooms.of_held {p : Population} {f : Farewell} (dooms : p.Dooms f) {r : Roster}
    (held : p.rosters.get? f.context = some r) :
    ∃ m, r.get? f.agent = some m ∧ m.role = f.role ∧ m.doomed = true := by
  obtain ⟨r', m, held', doomed⟩ := dooms
  obtain rfl := Option.some.inj (held.symm.trans held')
  exact ⟨m, doomed⟩

/-- Nobody is doomed in two roles. -/
theorem Dooms.unique {p : Population} {f g : Farewell} (dooms : p.Dooms f) (dooms' : p.Dooms g)
    (context : f.context = g.context) (agent : f.agent = g.agent) : f = g := by
  obtain ⟨r, m, held, here, role, _⟩ := dooms
  obtain ⟨m', here', role', _⟩ := dooms'.of_held (context ▸ held)
  rw [← agent] at here'
  obtain rfl := Option.some.inj (here.symm.trans here')
  have same : f.role = g.role := role.symm.trans role'
  cases f
  cases g
  cases context
  cases agent
  cases same
  rfl

/-- Somebody falls: it was there and not doomed, and it is doomed if it still is there. -/
structure Falls (p : Population) (f : Farewell) (q : Population) : Prop where
  alive : ∃ r m, p.rosters.get? f.context = some r ∧ r.get? f.agent = some m ∧ m.doomed = false
  doomed : ∀ ⦃r m⦄, q.rosters.get? f.context = some r → r.get? f.agent = some m →
    m.role = f.role ∧ m.doomed = true

/-- **Doom is final**: whoever is doomed remains so until it leaves. -/
theorem Sound.dooms_run {p q : Population} {cs : List Change} (sound : p.Sound) (run : Run p cs q)
    (spares : p.Spares cs) (kept : ∀ x, .released x ∉ cs) {f : Farewell} (dooms : p.Dooms f)
    (stays : ∀ g ∈ gone cs, g.1 = f.context → g.2.id ≠ f.agent) : q.Dooms f := by
  obtain ⟨r, m, held, here, role, doomed⟩ := dooms
  obtain ⟨r', m', held', there, ages⟩ := sound.remains_run run spares kept held here stays
  refine ⟨r', m', held', there, ?_, ages.doomed doomed⟩
  rw [← Member.role_who, ages.who, Member.role_who, role]

/-- Whoever is doomed is owed a farewell, once, and nobody else is. -/
structure Owes (p : Population) (owed : List Farewell) : Prop where
  once : owed.Nodup
  dooms : ∀ f, f ∈ owed ↔ p.Dooms f

/-- The order in which farewells are owed does not matter. -/
theorem Owes.perm {p : Population} {owed owed' : List Farewell} (h : p.Owes owed)
    (same : owed'.Perm owed) : p.Owes owed' where
  once := same.nodup_iff.2 h.once
  dooms f := same.mem_iff.trans (h.dooms f)

/-- Whoever leaves is not there any more. -/
theorem Sound.not_dooms_of_gone {p q : Population} {cs : List Change} (sound : p.Sound)
    (run : Run p cs q) (spares : p.Spares cs) (kept : ∀ x, .released x ∉ cs) {g : Id × Member}
    (left : g ∈ gone cs) {f : Farewell} (agent : g.2.id = f.agent) :
    ¬ q.Dooms f := by
  rintro ⟨r, m, held, here, _⟩
  have record := sound.recorded_run run spares kept
  obtain ⟨there, keyed⟩ := record.sound.present_of_roster held here
  have same : g = (f.context, m.who) := record.injective (record.came_of_gone left)
    (record.came_of_present there) (agent.trans keyed.symm)
  exact record.not_gone there (same ▸ left)

/-- Whoever falls was not doomed. -/
theorem Falls.agent_ne {p q : Population} {f g : Farewell} (falls : p.Falls f q)
    (dooms : p.Dooms g) (context : g.context = f.context) : g.agent ≠ f.agent := by
  intro agent
  obtain ⟨r, m, held, here, alive⟩ := falls.alive
  obtain ⟨n, here', _, doomed⟩ := dooms.of_held (context ▸ held)
  rw [agent, here] at here'
  obtain rfl := Option.some.inj here'
  rw [alive] at doomed
  cases doomed

/-- **What is owed is paid off**: whoever is `due` leaves, and nobody else does; whoever is doomed
meanwhile is owed a farewell then. -/
theorem Owes.run {p q : Population} {cs : List Change} {due owed more : List Farewell}
    (h : p.Owes (due ++ owed)) (sound : p.Sound) (run : Run p cs q) (spares : p.Spares cs)
    (kept : ∀ x, .released x ∉ cs)
    (leave : (gone cs).map (fun g => (g.1, g.2.id)) = due.map fun f => (f.context, f.agent))
    (owes : ∀ ⦃f⦄, q.Dooms f → p.Dooms f ∨ f ∈ more) (falls : ∀ f ∈ more, p.Falls f q)
    (once : more.Nodup) : q.Owes (owed ++ more) := by
  obtain ⟨_, apart, disjoint⟩ := List.nodup_append.1 h.once
  -- whoever leaves is due
  have isDue : ∀ {g : Id × Member}, g ∈ gone cs →
      ∃ f ∈ due, f.context = g.1 ∧ f.agent = g.2.id := by
    intro g left
    have image : (g.1, g.2.id) ∈ (gone cs).map fun g => (g.1, g.2.id) :=
      List.mem_map_of_mem left
    rw [leave] at image
    obtain ⟨f, mem, same⟩ := List.mem_map.1 image
    obtain ⟨context, agent⟩ := Prod.mk.inj same
    exact ⟨f, mem, context, agent⟩
  have was : ∀ {f}, f ∈ due ++ owed → p.Dooms f := fun mem => (h.dooms _).1 mem
  constructor
  · refine List.nodup_append.2 ⟨apart, once, fun f mem g later same => ?_⟩
    obtain rfl := same
    exact (falls f later).agent_ne (was (List.mem_append_right _ mem)) rfl rfl
  · intro f
    constructor
    · intro mem
      rcases List.mem_append.1 mem with before | now
      · refine sound.dooms_run run spares kept (was (List.mem_append_right _ before)) ?_
        intro g left context agent
        obtain ⟨f', mem', context', agent'⟩ := isDue left
        have same : f' = f := (was (List.mem_append_left _ mem')).unique
          (was (List.mem_append_right _ before)) (context'.trans context) (agent'.trans agent)
        exact disjoint f' mem' f before same
      · have stays : ∀ g ∈ gone cs, g.1 = f.context → g.2.id ≠ f.agent := by
          intro g left context agent
          obtain ⟨f', mem', context', agent'⟩ := isDue left
          exact (falls f now).agent_ne (was (List.mem_append_left _ mem'))
            (context'.trans context) (agent'.trans agent)
        obtain ⟨⟨r, m, held, here, _⟩, doomed⟩ := falls f now
        obtain ⟨r', m', held', there, _⟩ := sound.remains_run run spares kept held here stays
        exact ⟨r', m', held', there, doomed held' there⟩
    · intro doomed
      rcases owes doomed with before | now
      · rcases List.mem_append.1 ((h.dooms f).2 before) with isDue | still
        · have image : (f.context, f.agent) ∈ due.map fun f => (f.context, f.agent) :=
            List.mem_map_of_mem isDue
          rw [← leave] at image
          obtain ⟨g, left, same⟩ := List.mem_map.1 image
          exact absurd doomed
            (sound.not_dooms_of_gone run spares kept left (Prod.mk.inj same).2)
        · exact List.mem_append_left _ still
      · exact List.mem_append_right _ now

/-! ## Only farewells -/

/-- What farewells leave of a population: nobody comes, and nobody leaves an empty context behind;
and sinks that are alive stay as they are. -/
structure Dwindles (p q : Population) : Prop where
  wanes : ∀ ⦃x r'⦄, q.rosters.get? x = some r' →
    ∃ r, p.rosters.get? x = some r ∧ r.Wanes r' ∧ (r ≠ [] → r' ≠ [])
  stays : ∀ ⦃x r id m⦄, p.rosters.get? x = some r → r.get? id = some m → m.role = .sink →
    m.destroying = false → ∃ r', q.rosters.get? x = some r' ∧ r'.get? id = some m

theorem Dwindles.of_rosters {p q : Population} (same : q.rosters = p.rosters) : p.Dwindles q where
  wanes _ r' held := ⟨r', same ▸ held, .refl r', fun someone => someone⟩
  stays _ r _ _ held here _ _ := ⟨r, same ▸ held, here⟩

theorem Dwindles.trans {a b c : Population} (h : a.Dwindles b) (h' : b.Dwindles c) :
    a.Dwindles c where
  wanes x r' held := by
    obtain ⟨s, between, later, notLater⟩ := h'.wanes held
    obtain ⟨r, before, sooner, notSooner⟩ := h.wanes between
    exact ⟨r, before, sooner.trans later, fun someone => notLater (notSooner someone)⟩
  stays x r id m held here isSink alive := by
    obtain ⟨s, between, there⟩ := h.stays held here isSink alive
    exact h'.stays between there isSink alive

/-- What a farewell does to a population. -/
inductive Parts (p : Population) (f : Farewell) (q : Population) : Prop
  /-- Whoever bids it leaves, and others remain. -/
  | left (r : Roster) (m : Member) (held : p.rosters.get? f.context = some r)
      (here : r.get? m.id = some m) (isIt : m.id = f.agent) (doomed : m.doomed = true)
      (others : r.leave m ≠ []) (rosters : q.rosters = p.rosters.put f.context (r.leave m))
  /-- It is the last to leave, and the context is closed. -/
  | last (r : Roster) (m : Member) (held : p.rosters.get? f.context = some r)
      (here : r.get? m.id = some m) (isIt : m.id = f.agent) (doomed : m.doomed = true)
      (nobody : r.leave m = [])
      (closed : q.rosters = (p.rosters.put f.context (r.leave m)).erase f.context)

variable {p q : Population} {f : Farewell}

/-- Nobody whom a farewell does not concern leaves a living sink's roster. -/
theorem stays_leave (sound : p.Sound) {x id : Id} {r : Roster} {m n : Member}
    (held : p.rosters.get? x = some r) (here : r.get? m.id = some m) (doomed : m.doomed = true)
    (there : r.get? id = some n) (isSink : n.role = .sink) (alive : n.destroying = false) :
    (r.leave m).get? id = some n := by
  apply Roster.get?_leave_of_alive _ there alive
  rintro rfl
  rw [here] at there
  obtain rfl := Option.some.inj there
  rw [(sound.settled (holds_of_held held)).destroying here isSink doomed] at alive
  cases alive

theorem Parts.dwindles (h : p.Parts f q) (sound : p.Sound) : p.Dwindles q := by
  cases h with
  | left r m held here isIt doomed others rosters =>
    constructor
    · intro y r' later
      rw [rosters] at later
      rcases Table.get?_put_cases later with ⟨rfl, rfl⟩ | before
      · exact ⟨r, held, r.wanes_leave m, fun _ => others⟩
      · exact ⟨r', before, .refl r', fun someone => someone⟩
    · intro y s id n before there isSink alive
      rw [rosters, Table.get?_put]
      split
      · rename_i same
        rw [same, held] at before
        obtain rfl := Option.some.inj before
        exact ⟨_, rfl, stays_leave sound held here doomed there isSink alive⟩
      · exact ⟨s, before, there⟩
  | last r m held here isIt doomed nobody closed =>
    rw [Table.erase_put] at closed
    constructor
    · intro y r' later
      rw [closed] at later
      exact ⟨r', Table.get?_of_get?_erase later, .refl r', fun someone => someone⟩
    · intro y s id n before there isSink alive
      refine ⟨s, ?_, there⟩
      rw [closed, Table.get?_erase, if_neg, before]
      -- a living sink would have stayed
      rintro rfl
      rw [held] at before
      obtain rfl := Option.some.inj before
      have stays := stays_leave sound held here doomed there isSink alive
      rw [nobody] at stays
      cases stays

end Population

end CastHub
