import CastHub.Proofs.Acts
/-!
# Sinks wait for their sources

A sink that is to be destroyed waits until its last source has gone, and no longer. And there is no
way back: nobody who has been told to destroy itself is ever untold (`Population.Sound.ages_run`),
so a sink that has stopped waiting never has a source again.
-/

namespace CastHub

/-- The same member later: it is who it was, and as far in its teardown as it was, if no further. -/
structure Member.Ages (m m' : Member) : Prop where
  who : m'.who = m.who
  destroying : m.destroying = true → m'.destroying = true
  doomed : m.doomed = true → m'.doomed = true

theorem Member.Ages.refl (m : Member) : m.Ages m :=
  ⟨rfl, fun destroying => destroying, fun doomed => doomed⟩

theorem Member.Ages.trans {a b c : Member} (h : a.Ages b) (h' : b.Ages c) : a.Ages c where
  who := h'.who.trans h.who
  destroying first := h'.destroying (h.destroying first)
  doomed first := h'.doomed (h.doomed first)

namespace Roster

/-- Nobody on a later roster is new. -/
def Wanes (r r' : Roster) : Prop :=
  ∀ ⦃id m'⦄, r'.get? id = some m' → ∃ m, r.get? id = some m ∧ m.Ages m'

theorem Wanes.refl (r : Roster) : r.Wanes r := fun _ m here => ⟨m, here, .refl m⟩

theorem Wanes.trans {a b c : Roster} (h : a.Wanes b) (h' : b.Wanes c) : a.Wanes c := by
  intro id m there
  obtain ⟨n, between, later⟩ := h' there
  obtain ⟨o, here, sooner⟩ := h between
  exact ⟨o, here, sooner.trans later⟩

theorem wanes_doomAll (r : Roster) (ids : List Id) : r.Wanes (r.doomAll ids) := by
  intro id m there
  rw [get?_doomAll] at there
  split at there
  · obtain ⟨n, here, rfl⟩ := Option.map_eq_some_iff.1 there
    exact ⟨n, here, n.who_doom, Member.destroying_doom, fun _ => n.doomed_doom⟩
  · exact ⟨m, there, .refl m⟩

theorem wanes_mark (r : Roster) (marked : Id) : r.Wanes (r.mark marked) := by
  intro id m there
  rw [get?_mark] at there
  split at there
  · obtain ⟨n, here, rfl⟩ := Option.map_eq_some_iff.1 there
    exact ⟨n, here, rfl, fun _ => rfl, fun doomed => doomed⟩
  · exact ⟨m, there, .refl m⟩

theorem wanes_erase (r : Roster) (gone : Id) : r.Wanes (r.erase gone) := fun _ m there =>
  ⟨m, Table.get?_of_get?_erase there, .refl m⟩

theorem wanes_tearDown (r : Roster) (id : Id) : r.Wanes (r.tearDown id) := by
  unfold tearDown
  split
  · exact .refl r
  · split
    · exact wanes_doomAll r _
    · exact (wanes_mark r id).trans (wanes_doomAll _ _)

theorem wanes_settle (r : Roster) (sink : Id) : r.Wanes (r.settle sink) := by
  unfold settle
  split
  · exact .refl r
  · split
    · exact wanes_doomAll r _
    · exact .refl r

theorem wanes_leave (r : Roster) (m : Member) : r.Wanes (r.leave m) := by
  unfold leave
  split
  · exact (wanes_erase r m.id).trans (wanes_settle _ _)
  · exact wanes_erase r m.id

end Roster

namespace Population

/-- Whether a member of an identity is in the making in a context. -/
def Expects (p : Population) (x id : Id) : Prop :=
  ∃ ar ∈ p.arrivals, ar.context = x ∧ ar.member.id = id

/-- Whoever is on a roster is not in the making. -/
theorem Sound.not_expects {p : Population} (h : p.Sound) {x id : Id} {r : Roster} {m : Member}
    (holds : p.Holds x r) (here : r.get? id = some m) : ¬ p.Expects x id := by
  rintro ⟨ar, mem, rfl, rfl⟩
  rw [(h.awaits ar mem).absentThere holds] at here
  cases here

/-- Nobody is in the making who was not so before, unless its identity is handed out. -/
theorem Step.expects {p q : Population} {c : Change} (step : Step p c q) {x id : Id}
    (expects : q.Expects x id) : p.Expects x id ∨ id ∈ c.mints := by
  obtain ⟨ar, mem, isX, rfl⟩ := expects
  exact (step.arrives mem).imp_left fun before => ⟨ar, before, isX, rfl⟩

theorem Run.expects {p q : Population} {cs : List Change} (run : Run p cs q) {x id : Id}
    (expects : q.Expects x id) : p.Expects x id ∨ id ∈ minted cs := by
  induction run with
  | nil => exact .inl expects
  | snoc run step ih =>
    rw [minted_snoc]
    rcases step.expects expects with before | now
    · exact (ih before).imp_right (List.mem_append_left _)
    · exact .inr (List.mem_append_right _ now)

/-- Whoever is on the roster of a context after a step, and was not in the making, was on it
before. -/
theorem Step.ages {p q : Population} {c : Change} (step : Step p c q) {id : Id}
    {x : Id} (unexpected : ¬ p.Expects x id) {r' : Roster} (holds : q.Holds x r') {m' : Member}
    (there : r'.get? id = some m') : ∃ r m, p.Holds x r ∧ r.get? id = some m ∧ m.Ages m' := by
  have same : p.Holds x r' → ∃ r m, p.Holds x r ∧ r.get? id = some m ∧ m.Ages m' :=
    fun before => ⟨r', m', before, there, .refl m'⟩
  -- whoever joins was in the making
  have joins : ∀ {r : Roster} {ar : Arrival} {m : Member}, ar ∈ p.arrivals → ar.context = x →
      m.Completes ar.member → Table.get? (r.put m.id m) id = some m' → r.get? id = some m' := by
    intro r ar m mem isX ready found
    rcases Table.get?_put_cases found with ⟨isIt, _⟩ | before
    · exact absurd ⟨ar, mem, isX, by rw [isIt, ready.eq]⟩ unexpected
    · exact before
  cases step with
  | limited limits => exact same holds
  | begun ar assigned new room r held anchored => exact same holds
  | dropped ar rest latest => exact same holds
  | opened y assigned room =>
    rcases holds.of_put rfl rfl with ⟨_, rfl⟩ | before
    · cases there
    · exact same before
  | closed y empty =>
    rcases holds.of_detach with ⟨_, rfl⟩ | before
    · cases there
    · exact same before
  | released y r held =>
    rcases holds.of_detach with ⟨_, rfl⟩ | before
    · cases there
    · exact same before
  | published ar rest m r latest held ready welcome =>
    rcases holds.of_put rfl rfl with ⟨rfl, rfl⟩ | before
    · have here := joins (latest ▸ List.mem_cons_self ..) rfl ready there
      exact ⟨r, m', holds_of_held held, here, .refl m'⟩
    · exact same before
  | stranded ar rest m r latest gone kept ready welcome =>
    rcases holds.of_putDetached rfl rfl with ⟨rfl, rfl⟩ | before
    · have here := joins (latest ▸ List.mem_cons_self ..) rfl ready there
      exact ⟨r, m', holds_of_released gone kept, here, .refl m'⟩
    · exact same before
  | tornDown y torn r held =>
    rcases holds.of_put rfl rfl with ⟨rfl, rfl⟩ | before
    · obtain ⟨m, here, ages⟩ := r.wanes_tearDown torn there
      exact ⟨r, m, holds_of_held held, here, ages⟩
    · exact same before
  | left y r m held here free =>
    rcases holds.of_put rfl rfl with ⟨rfl, rfl⟩ | before
    · obtain ⟨n, here, ages⟩ := r.wanes_leave m there
      exact ⟨r, n, holds_of_held held, here, ages⟩
    · exact same before

theorem Run.ages {p q : Population} {cs : List Change} (run : Run p cs q) {x id : Id}
    (unexpected : ¬ p.Expects x id) (once : id ∉ minted cs) {r' : Roster} {m' : Member}
    (holds : q.Holds x r') (there : r'.get? id = some m') :
    ∃ r m, p.Holds x r ∧ r.get? id = some m ∧ m.Ages m' := by
  induction run generalizing r' m' with
  | nil => exact ⟨_, _, holds, there, .refl _⟩
  | snoc run step ih =>
    rw [minted_snoc] at once
    have sooner := fun mem => once (List.mem_append_left _ mem)
    have still := fun expects => (run.expects expects).elim unexpected sooner
    obtain ⟨r, m, before, here, later⟩ := step.ages still holds there
    obtain ⟨r₀, m₀, first, here₀, ages⟩ := ih sooner before here
    exact ⟨r₀, m₀, first, here₀, ages.trans later⟩

/-- **Doom is final**: whoever is there remains who it is, and doomed if it is, for as long as it is
there and its identity is not handed out again. -/
theorem Sound.ages_run {p q : Population} {cs : List Change} (h : p.Sound) (run : Run p cs q)
    {x id : Id} (once : id ∉ minted cs) {r r' : Roster} {m m' : Member} (holds : p.Holds x r)
    (here : r.get? id = some m) (holds' : q.Holds x r') (there : r'.get? id = some m') :
    m.Ages m' := by
  obtain ⟨r₀, m₀, holds₀, here₀, ages⟩ := run.ages (h.not_expects holds here) once holds' there
  obtain rfl := holds.unique holds₀
  rw [here] at here₀
  obtain rfl := Option.some.inj here₀
  exact ages

/-- Whoever is on the roster of a context that is held stays on it until it leaves. -/
theorem Sound.remains_run {p q : Population} {cs : List Change} (h : p.Sound) (run : Run p cs q)
    (spares : p.Spares cs) (kept : ∀ x, .released x ∉ cs) {x id : Id} {r : Roster} {m : Member}
    (held : p.rosters.get? x = some r) (here : r.get? id = some m)
    (stays : ∀ g ∈ gone cs, g.1 = x → g.2.id ≠ id) :
    ∃ r' m', q.rosters.get? x = some r' ∧ r'.get? id = some m' ∧ m.Ages m' := by
  obtain ⟨there, rfl⟩ := h.present_of_roster held here
  have record := h.recorded_run run spares kept
  rcases record.stays there with left | still
  · exact absurd rfl (stays _ left rfl)
  · obtain ⟨r', m', held', found, _⟩ := record.sound.mem_present.1 still
    have once : m.id ∉ minted cs := fun mem => spares.unused _ mem (.member held here)
    exact ⟨r', m', held', found,
      h.ages_run run once (holds_of_held held) here (holds_of_held held') found⟩

end Population

namespace Hub

/-- In a hub where everything is in order, a sink is doomed exactly if it is to be destroyed and has
no source. -/
theorem Sound.step_eq_destroy_iff {hub : Hub} (h : hub.Sound) {x id : Id} {c : Context} {a : Agent}
    (there : hub.context? x = some c) (here : c.agents.get? id = some a) (isSink : a.role = .sink) :
    a.step = .destroy ↔ a.destroying = true ∧ c.hasSourceOf id = false := by
  have found := Context.member_of_agent here
  have settled : c.roster.Settled := h.sound.settled (holds_of_context? there)
  have doomed := settled found isSink
  rw [Context.hasSourceOf_roster] at doomed
  exact decide_eq_true_iff.symm.trans doomed

/-- **Sinks wait for their sources.** At any time, as long as no live number has been met again, in
every context: the run-step of a sink is destruction if and only if the sink is to be destroyed and
no source is attached to it. Once that is so, it remains so: whatever happens later, as long as its
number is not handed out to somebody else, the sink is never anything but destroyed, and no source
is attached to it. -/
theorem sinks_wait_for_their_sources {hub : Hub} (fresh : hub.IsFresh) (acts : List Act)
    (spares : ∀ m ∈ hub.journal acts, m.Spares) {x id : Id} {c : Context} {a : Agent}
    (there : (hub.after acts).context? x = some c) (here : c.agents.get? id = some a)
    (isSink : a.role = .sink) :
    (a.step = .destroy ↔ a.destroying = true ∧ c.hasSourceOf id = false) ∧
    (a.step = .destroy → ∀ later : List Act, (∀ m ∈ (hub.after acts).journal later, m.Spares) →
      id ∉ minted ((hub.after acts).journal later) → ∀ (c' : Context) (a' : Agent),
      (hub.after (acts ++ later)).context? x = some c' → c'.agents.get? id = some a' →
      a'.step = .destroy ∧ c'.hasSourceOf id = false) := by
  have sound := fresh.sound_after spares
  refine ⟨sound.step_eq_destroy_iff there here isSink,
    fun doomed later still once c' a' there' here' => ?_⟩
  obtain ⟨cs, undergoes⟩ := sound.toFit.after later
  have sound' := sound.after later still
  rw [undergoes.minted] at once
  rw [after_append] at there'
  have ages : a.member.Ages a'.member := sound.sound.ages_run undergoes.run once
    (holds_of_context? there) (Context.member_of_agent here)
    (holds_of_context? there') (Context.member_of_agent here')
  have doomed' : a'.step = .destroy := of_decide_eq_true (ages.doomed (decide_eq_true doomed))
  have isSink' : a'.role = .sink := (congrArg Member.role ages.who).trans isSink
  exact ⟨doomed', ((sound'.step_eq_destroy_iff there' here' isSink').1 doomed').2⟩

/-- So it is when the sink of a sharing session has been told to go, and its source has gone. -/
theorem sinks_wait_for_their_sources_after_parting :
    ∃ c a, (loopback.after (Act.sharing ++ Act.parting.take 2)).context? 1 = some c ∧
      c.agents.get? 2 = some a ∧ a.role = .sink ∧ a.step = .destroy ∧
      (a.step = .destroy ↔ a.destroying = true ∧ c.hasSourceOf 2 = false) ∧
      (a.step = .destroy → ∀ later : List Act,
        (∀ m ∈ (loopback.after (Act.sharing ++ Act.parting.take 2)).journal later, m.Spares) →
        2 ∉ minted ((loopback.after (Act.sharing ++ Act.parting.take 2)).journal later) →
        ∀ (c' : Context) (a' : Agent),
        (loopback.after ((Act.sharing ++ Act.parting.take 2) ++ later)).context? 1 = some c' →
        c'.agents.get? 2 = some a' → a'.step = .destroy ∧ c'.hasSourceOf 2 = false) :=
  ⟨_, _, rfl, rfl, rfl, rfl, @sinks_wait_for_their_sources _ isFresh_loopback
    (Act.sharing ++ Act.parting.take 2) (by decide) 1 2 _ _ rfl rfl rfl⟩

end Hub

end CastHub
