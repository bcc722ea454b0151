import CastHub.Proofs.Population
/-!
# Histories of populations

Who joined and who left, in the order in which it happened, and what that says about who is there.

* `Recorded` : everybody who was there at first or joined has left once or is there, nobody joins
  twice, and a sink leaves after all of its sources (`Recorded.step`, `Recorded.run`). This takes
  that no identity is handed out twice;
* `Within` : the quotas are kept, and stay kept unless a change goes past them (`Within.run`).
-/

namespace CastHub

namespace Change

/-- Who joins a context that is held, and which. -/
def joins : Change → List (Id × Member)
  | .published ar m => [(ar.context, m.who)]
  | _ => []

/-- Who leaves, and which context. -/
def leaves : Change → List (Id × Member)
  | .left x m => [(x, m.who)]
  | _ => []

/-- Whether a change goes past the quotas: it moves them, or it is the arrival of somebody whom they
do not count. -/
def passesQuota : Change → Bool
  | .limited _ => true
  | .published ar _ => !ar.counted
  | _ => false

/-- How much of a role's quota a change takes that it did not take before. -/
def takes : Change → Role → Nat
  | .begun ar, role => if ar.counted && ar.member.role = role then 1 else 0
  | _, _ => 0

end Change

namespace Population

/-- Everybody who has joined a context, in order. -/
def joined (cs : List Change) : List (Id × Member) := cs.flatMap Change.joins

/-- Everybody who has left a context, in order. -/
def gone (cs : List Change) : List (Id × Member) := cs.flatMap Change.leaves

theorem joined_append (cs ds : List Change) : joined (cs ++ ds) = joined cs ++ joined ds :=
  List.flatMap_append

theorem gone_append (cs ds : List Change) : gone (cs ++ ds) = gone cs ++ gone ds :=
  List.flatMap_append

theorem joined_snoc (cs : List Change) (c : Change) :
    joined (cs ++ [c]) = joined cs ++ c.joins := by
  rw [joined_append]
  exact congrArg _ (List.append_nil _)

theorem gone_snoc (cs : List Change) (c : Change) : gone (cs ++ [c]) = gone cs ++ c.leaves := by
  rw [gone_append]
  exact congrArg _ (List.append_nil _)

/-! ## Attendance -/

theorem mem_attendance {x : Id} {r : Roster} (sorted : r.Sorted) {j : Id × Member} :
    j ∈ attendance x r ↔ j.1 = x ∧ ∃ id m, r.get? id = some m ∧ m.who = j.2 := by
  unfold attendance Roster.people Table.mapValues
  rw [List.mem_map]
  constructor
  · rintro ⟨f, mem, rfl⟩
    obtain ⟨⟨id, m⟩, entry, rfl⟩ := List.mem_map.1 mem
    exact ⟨rfl, id, m, Table.get?_of_mem sorted entry, rfl⟩
  · rintro ⟨rfl, id, m, found, who⟩
    refine ⟨(id, m.who), List.mem_map.2 ⟨(id, m), Table.mem_of_get? found, rfl⟩, ?_⟩
    rw [who]

/-- Somebody is there exactly if the roster of some context says so. -/
theorem Orderly.mem_present {p : Population} (h : p.Orderly) {x : Id} {n : Member} :
    (x, n) ∈ p.present ↔
      ∃ r m, p.rosters.get? x = some r ∧ r.get? n.id = some m ∧ m.who = n := by
  unfold present
  rw [List.mem_flatMap]
  constructor
  · rintro ⟨⟨y, r⟩, entry, mem⟩
    have held := Table.get?_of_mem h.sorted entry
    have filed := h.filed_of_held held
    obtain ⟨same, id, m, found, who⟩ := (mem_attendance filed.sorted).1 mem
    have keyed := (filed.keyed found).1
    subst same who
    exact ⟨r, m, held, by rw [Member.id_who, keyed, found], rfl⟩
  · rintro ⟨r, m, held, found, who⟩
    have sorted := (h.filed_of_held held).sorted
    exact ⟨(x, r), Table.mem_of_get? held, (mem_attendance sorted).2 ⟨rfl, n.id, m, found, who⟩⟩

theorem Orderly.present_of_roster {p : Population} (h : p.Orderly) {x id : Id} {r : Roster}
    {m : Member} (held : p.rosters.get? x = some r) (found : r.get? id = some m) :
    (x, m.who) ∈ p.present ∧ m.id = id := by
  have keyed := ((h.filed_of_held held).keyed found).1
  refine ⟨h.mem_present.2 ⟨r, m, held, ?_, rfl⟩, keyed⟩
  rw [Member.id_who, keyed, found]

/-- Attendance in one context and in all others. -/
theorem present_perm {rosters : Table Id Roster} (sorted : rosters.Sorted) {x : Id} {r : Roster}
    (held : rosters.get? x = some r) :
    (rosters.flatMap fun e => attendance e.1 e.2).Perm
      (attendance x r ++ (rosters.erase x).flatMap fun e => attendance e.1 e.2) :=
  (Table.perm_erase sorted held).flatMap_right _

/-- The same after the roster of that context has changed. -/
theorem present_put_perm {rosters : Table Id Roster} (sorted : rosters.Sorted) (x : Id)
    (r' : Roster) :
    ((rosters.put x r').flatMap fun e => attendance e.1 e.2).Perm
      (attendance x r' ++ (rosters.erase x).flatMap fun e => attendance e.1 e.2) :=
  (Table.perm_put_erase sorted).flatMap_right _

theorem attendance_put {x id : Id} {r : Roster} {m : Member} (new : r.get? id = none) :
    (attendance x (r.put id m)).Perm ((x, m.who) :: attendance x r) := by
  have absent : r.people.get? id = none := by rw [Roster.get?_people, new]; rfl
  have put : Roster.people (r.put id m) = r.people.put id m.who := Table.mapValues_put ..
  unfold attendance
  rw [put]
  exact (Table.perm_put absent).map _

theorem attendance_leave {x : Id} {r : Roster} {m : Member} (sorted : r.Sorted)
    (here : r.get? m.id = some m) :
    (attendance x r).Perm ((x, m.who) :: attendance x (r.leave m)) := by
  have found : r.people.get? m.id = some m.who := by rw [Roster.get?_people, here]; rfl
  unfold attendance
  rw [Roster.people_leave sorted]
  exact (Table.perm_erase (Table.sorted_mapValues.2 sorted) found).map _

/-- Nobody is there twice. -/
theorem Sound.nodup_present {p : Population} (h : p.Sound) :
    (p.present.map (·.2.id)).Nodup := by
  refine List.pairwise_map.2 (List.pairwise_flatMap.2 ⟨?_, ?_⟩)
  · rintro ⟨x, r⟩ entry
    have filed := h.filed_of_held (Table.get?_of_mem h.sorted entry)
    refine List.pairwise_map.2 (List.pairwise_map.2 (filed.sorted.imp_of_mem ?_))
    intro e f memE memF less same
    have keyedE := (filed.keyed (Table.get?_of_mem filed.sorted memE)).1
    have keyedF := (filed.keyed (Table.get?_of_mem filed.sorted memF)).1
    have isOne : e.1 = f.1 := keyedE.symm.trans (same.trans keyedF)
    rw [isOne] at less
    exact Std.lt_irrefl less
  · refine h.sorted.imp_of_mem ?_
    rintro ⟨x, r⟩ ⟨y, s⟩ entryX entryY less j memJ k memK same
    have heldX := Table.get?_of_mem h.sorted entryX
    have heldY := Table.get?_of_mem h.sorted entryY
    obtain ⟨-, id, m, here, whoJ⟩ := (mem_attendance (h.filed_of_held heldX).sorted).1 memJ
    obtain ⟨-, id', n, there, whoK⟩ := (mem_attendance (h.filed_of_held heldY).sorted).1 memK
    have keyedJ := ((h.filed_of_held heldX).keyed here).1
    have keyedK := ((h.filed_of_held heldY).keyed there).1
    rw [← whoJ, ← whoK, Member.id_who, Member.id_who, keyedJ, keyedK] at same
    have isOne : x = y := h.lone heldX here heldY (same ▸ there)
    rw [isOne] at less
    exact Std.lt_irrefl less

/-- **Who joins and who is there make up who leaves and who is there then**, unless a context is
released, or an identity is handed out that is in use. -/
theorem Sound.balance {p q : Population} {c : Change} (h : p.Sound) (step : Step p c q)
    (fresh : ∀ id ∈ c.mints, ¬ p.Uses id) (kept : ∀ x, c ≠ .released x) :
    (c.joins ++ p.present).Perm (c.leaves ++ q.present) := by
  cases step with
  | limited limits => exact List.Perm.refl _
  | opened x assigned room =>
    have new : p.rosters.get? x = none := Option.eq_none_iff_forall_ne_some.2 fun _ held =>
      fresh x (List.mem_singleton_self _) (.context held)
    have joined : (p.rosters.put x []).Perm ((x, []) :: p.rosters) := Table.perm_put new
    exact (joined.flatMap_right fun e => attendance e.1 e.2).symm
  | closed x empty => exact present_perm h.sorted empty
  | released x r held => exact absurd rfl (kept x)
  | begun ar assigned new room r held anchored => exact List.Perm.refl _
  | dropped ar rest latest => exact List.Perm.refl _
  | published ar rest m r latest held ready welcome =>
    have mem : ar ∈ p.arrivals := latest ▸ List.mem_cons_self ..
    have isIt : m.id = ar.member.id := by rw [ready.eq]
    have new : r.get? m.id = none := isIt ▸ (h.awaits ar mem).absent held
    refine List.Perm.trans ?_ (present_put_perm h.sorted _ _).symm
    refine List.Perm.trans ?_ ((attendance_put new).append_right _).symm
    exact (present_perm h.sorted held).cons _
  | stranded ar rest m r latest gone kept ready welcome => exact List.Perm.refl _
  | tornDown x id r held =>
    have same : attendance x (r.tearDown id) = attendance x r := by
      unfold attendance
      rw [Roster.people_tearDown (h.filed_of_held held).sorted]
    refine (present_perm h.sorted held).trans ?_
    rw [← same]
    exact (present_put_perm h.sorted _ _).symm
  | left x r m held here free =>
    refine (present_perm h.sorted held).trans ?_
    refine ((attendance_leave (h.filed_of_held held).sorted here).append_right _).trans ?_
    exact (present_put_perm h.sorted _ _).symm.cons _

/-- Whoever is there was there before or has joined. -/
theorem Orderly.present_step {p q : Population} {c : Change} (h : p.Orderly) (step : Step p c q)
    {j : Id × Member} (there : j ∈ q.present) : j ∈ p.present ∨ j ∈ c.joins := by
  obtain ⟨x, n⟩ := j
  obtain ⟨r', m', isHeld, isHere, who⟩ := (h.step step).mem_present.1 there
  have same : p.rosters.get? x = some r' → (x, n) ∈ p.present ∨ (x, n) ∈ c.joins := fun held =>
    .inl (h.mem_present.2 ⟨r', m', held, isHere, who⟩)
  -- a roster that has changed, but on which everybody was before
  have put : ∀ {y r s}, p.rosters.get? y = some r → (p.rosters.put y s).get? x = some r' →
      (∀ {id m}, s.get? id = some m → ∃ o, r.get? id = some o ∧ o.who = m.who) →
      (x, n) ∈ p.present ∨ (x, n) ∈ c.joins := by
    intro y r s held later members
    rcases Table.get?_put_cases later with ⟨rfl, rfl⟩ | before
    · obtain ⟨o, here, alike⟩ := members isHere
      exact .inl (h.mem_present.2 ⟨r, o, held, here, alike.trans who⟩)
    · exact same before
  cases step with
  | opened y assigned room =>
    rcases Table.get?_put_cases isHeld with ⟨_, rfl⟩ | before
    · cases isHere
    · exact same before
  | closed y empty => exact same (Table.get?_of_get?_erase isHeld)
  | released y r held => exact same (Table.get?_of_get?_erase isHeld)
  | published ar rest m r latest held ready welcome =>
    rcases Table.get?_put_cases isHeld with ⟨rfl, rfl⟩ | before
    · rcases Table.get?_put_cases isHere with ⟨_, rfl⟩ | here
      · exact .inr (List.mem_singleton.2 (Prod.ext rfl who.symm))
      · exact .inl (h.mem_present.2 ⟨r, m', held, here, who⟩)
    · exact same before
  | tornDown y torn r held =>
    exact put held isHeld (exists_of_people
      (.inr (by rw [Roster.people_tearDown (h.filed_of_held held).sorted])))
  | left y r m held here free =>
    exact put held isHeld
      (exists_of_people (people_leave_cases (h.filed_of_held held).sorted m _))
  | _ => exact same isHeld

theorem Orderly.present_run {p q : Population} {cs : List Change} (h : p.Orderly)
    (run : Run p cs q) {j : Id × Member} (there : j ∈ q.present) :
    j ∈ p.present ∨ j ∈ joined cs := by
  induction run with
  | nil => exact .inl there
  | @snoc cs c q r run step ih =>
    rw [joined_snoc]
    rcases (h.run run).present_step step there with before | now
    · exact (ih before).imp_right (List.mem_append_left _)
    · exact .inr (List.mem_append_right _ now)

/-! ## Records -/

/-- How the history of a population goes together with who was there at first and who is there in
the end. -/
structure Recorded (p : Population) (cs : List Change) (q : Population) : Prop where
  sound : q.Sound
  /-- Everybody who was there or joined has left or is there. -/
  balanced : (p.present ++ joined cs).Perm (gone cs ++ q.present)
  /-- Nobody joins twice. -/
  unique : ((p.present ++ joined cs).map (·.2.id)).Nodup
  awaited : ∀ j ∈ p.present ++ joined cs, ∀ ar ∈ q.arrivals, ar.member.id ≠ j.2.id
  /-- When a sink has left, all of its sources have. -/
  complete : ∀ g ∈ gone cs, ∀ j ∈ p.present ++ joined cs, j.2.isSourceOf g.2.id = true →
    j ∈ gone cs
  /-- No source leaves after its sink. -/
  ordered : (gone cs).Pairwise fun a b => b.2.isSourceOf a.2.id = false

/-- Nothing has happened yet. -/
theorem Sound.recorded {p : Population} (h : p.Sound) : p.Recorded [] p where
  sound := h
  balanced := by
    rw [show joined [] = [] from rfl, List.append_nil]
    exact List.Perm.refl _
  unique := by
    rw [show joined [] = [] from rfl, List.append_nil]
    exact h.nodup_present
  awaited := by
    rw [show joined [] = [] from rfl, List.append_nil]
    intro ⟨x, n⟩ there ar mem same
    obtain ⟨r, m, held, here, _⟩ := h.mem_present.1 there
    rw [← same, (h.awaits ar mem).absent held] at here
    cases here
  complete _ mem := by cases mem
  ordered := List.Pairwise.nil

section Records

variable {p q : Population} {cs : List Change}

/-- An identity is that of one member only. -/
theorem Recorded.injective (h : p.Recorded cs q) {a b : Id × Member}
    (memA : a ∈ p.present ++ joined cs) (memB : b ∈ p.present ++ joined cs)
    (same : a.2.id = b.2.id) : a = b := List.inj_on_of_nodup_map h.unique memA memB same

/-- Nobody leaves twice, or has left and is there. -/
theorem Recorded.nodup (h : p.Recorded cs q) : (gone cs ++ q.present).Nodup :=
  h.balanced.nodup_iff.1 (List.Nodup.of_map _ h.unique)

theorem Recorded.came_of_gone (h : p.Recorded cs q) {j : Id × Member} (mem : j ∈ gone cs) :
    j ∈ p.present ++ joined cs := h.balanced.mem_iff.2 (List.mem_append_left _ mem)

theorem Recorded.came_of_present (h : p.Recorded cs q) {j : Id × Member} (mem : j ∈ q.present) :
    j ∈ p.present ++ joined cs := h.balanced.mem_iff.2 (List.mem_append_right _ mem)

theorem Recorded.not_gone (h : p.Recorded cs q) {j : Id × Member} (mem : j ∈ q.present) :
    j ∉ gone cs := fun left => (List.nodup_append.1 h.nodup).2.2 j left j mem rfl

/-- Whoever is on a roster has not left. -/
theorem Recorded.id_of_gone (h : p.Recorded cs q) {x : Id} {r : Roster}
    (held : q.rosters.get? x = some r) {id : Id} {m : Member} (found : r.get? id = some m) :
    ∀ g ∈ gone cs, g.2.id ≠ id := by
  obtain ⟨here, keyed⟩ := h.sound.present_of_roster held found
  intro g left same
  have isIt : g = (x, m.who) :=
    h.injective (h.came_of_gone left) (h.came_of_present here) (same.trans keyed.symm)
  exact h.not_gone here (isIt ▸ left)

/-- Nobody who is there hangs on somebody who has left. -/
theorem Recorded.isSourceOf_gone (h : p.Recorded cs q) {j g : Id × Member} (here : j ∈ q.present)
    (left : g ∈ gone cs) : j.2.isSourceOf g.2.id = false := by
  obtain ⟨r, m, held, found, who⟩ := h.sound.mem_present.1 here
  rw [Bool.eq_false_iff]
  intro attached
  rw [← who, Member.isSourceOf_who] at attached
  obtain ⟨source, sink⟩ := Member.isSourceOf_iff.1 attached
  obtain ⟨s, there, _⟩ := (h.sound.attached_of_held held).anchored found source
  exact h.id_of_gone held there g left sink.symm

end Records

/-- Nobody who is there hangs on somebody who may leave. -/
theorem Sound.isSourceOf_free {p : Population} (h : p.Sound) {x : Id} {r : Roster} {m : Member}
    (held : p.rosters.get? x = some r) (here : r.get? m.id = some m)
    (free : r.hasSourceOf m.id = false) {j : Id × Member} (there : j ∈ p.present) :
    j.2.isSourceOf m.id = false := by
  obtain ⟨r', n, held', found, who⟩ := h.mem_present.1 there
  rw [Bool.eq_false_iff]
  intro attached
  have attached' : n.isSourceOf m.id = true := by rwa [← Member.isSourceOf_who, who]
  obtain ⟨source, sink⟩ := Member.isSourceOf_iff.1 attached'
  obtain ⟨s, sinkThere, _⟩ := (h.attached_of_held held').anchored found source
  -- the sink is in both contexts, so they are one
  have isX : j.1 = x := h.lone held' (sink ▸ sinkThere) held here
  rw [isX, held] at held'
  obtain rfl := Option.some.inj held'
  have hangs : r.hasSourceOf m.id = true :=
    (Roster.hasSourceOf_iff (h.filed_of_held held).sorted).2 ⟨j.2.id, n, found, attached'⟩
  rw [free] at hangs
  cases hangs

/-- Whoever is in the making was so before, or its identity has been handed out. -/
theorem Step.arrives {p q : Population} {c : Change} (step : Step p c q) {ar : Arrival}
    (mem : ar ∈ q.arrivals) : ar ∈ p.arrivals ∨ ar.member.id ∈ c.mints := by
  cases step with
  | begun br assigned new room r held anchored =>
    rcases List.mem_cons.1 mem with rfl | before
    · exact .inr (List.mem_singleton_self _)
    · exact .inl before
  | dropped br rest latest => exact .inl (latest ▸ List.mem_cons_of_mem _ mem)
  | published br rest m r latest held ready welcome =>
    exact .inl (latest ▸ List.mem_cons_of_mem _ mem)
  | stranded br rest m r latest gone kept ready welcome =>
    exact .inl (latest ▸ List.mem_cons_of_mem _ mem)
  | _ => exact .inl mem

/-- Whoever joins was in the making, and is no longer. -/
theorem Step.joins_arrival {p q : Population} {c : Change} (step : Step p c q) {j : Id × Member}
    (mem : j ∈ c.joins) : c.joins = [j] ∧
      ∃ ar, p.arrivals = ar :: q.arrivals ∧ j.2.id = ar.member.id := by
  cases step with
  | published ar rest m r latest held ready welcome =>
    obtain rfl := List.mem_singleton.1 mem
    exact ⟨rfl, ar, latest, by rw [Member.id_who, ready.eq]⟩
  | _ => cases mem

/-- Whoever joins was in the making at first, or its identity was handed out on the way. -/
theorem Orderly.uses_of_joined {p q : Population} {cs : List Change} (h : p.Orderly)
    (run : Run p cs q) {j : Id × Member} (mem : j ∈ joined cs) :
    p.Uses j.2.id ∨ j.2.id ∈ minted cs := by
  induction run with
  | nil => cases mem
  | snoc run step ih =>
    rw [joined_snoc] at mem
    rw [minted_snoc]
    rcases List.mem_append.1 mem with old | new
    · exact (ih old).imp_right (List.mem_append_left _)
    · obtain ⟨_, ar, latest, isIt⟩ := step.joins_arrival new
      have uses := h.uses_run run (.arrival (latest ▸ List.mem_cons_self ..) isIt.symm)
      exact uses.imp_right (List.mem_append_left _)

section Steps

variable {p q r : Population} {cs : List Change} {c : Change}

/-- Nobody joins whose sink has left. -/
theorem Recorded.isSourceOf_joins (h : p.Recorded cs q) (step : Step q c r) {j g : Id × Member}
    (joins : j ∈ c.joins) (left : g ∈ gone cs) : j.2.isSourceOf g.2.id = false := by
  cases step with
  | published ar rest m s latest held ready welcome =>
    obtain rfl := List.mem_singleton.1 joins
    rw [Bool.eq_false_iff]
    intro attached
    obtain ⟨source, sink⟩ := Member.isSourceOf_iff.1 attached
    obtain ⟨s, found, _⟩ := welcome source
    exact h.id_of_gone held found g left sink.symm
  | _ => cases joins

/-- Whoever leaves was there, and nobody hangs on it. -/
theorem Sound.leaves_free (h : q.Sound) (step : Step q c r) {g : Id × Member}
    (leaves : g ∈ c.leaves) : c.leaves = [g] ∧ c.joins = [] ∧ g ∈ q.present ∧
      ∀ j ∈ q.present, j.2.isSourceOf g.2.id = false := by
  cases step with
  | left x s m held here free =>
    obtain rfl := List.mem_singleton.1 leaves
    have unattached : s.hasSourceOf m.id = false := by
      cases role : m.role with
      | sink => exact free role
      | source => exact (h.attached_of_held held).hasSourceOf_source here role
    exact ⟨rfl, rfl, (h.present_of_roster held here).1,
      fun j there => h.isSourceOf_free held here unattached there⟩
  | _ => cases leaves

/-- Whoever joins is an arrival, and no arrival has joined before. -/
theorem Recorded.unique_step (h : p.Recorded cs q) (step : Step q c r) :
    ((p.present ++ joined (cs ++ [c])).map (·.2.id)).Nodup := by
  rw [joined_snoc, ← List.append_assoc, List.map_append, List.nodup_append]
  refine ⟨h.unique, ?_, ?_⟩
  · cases joins : c.joins with
    | nil => exact List.Pairwise.nil
    | cons j rest =>
      have mem : j ∈ c.joins := joins ▸ List.mem_cons_self ..
      rw [← joins, (step.joins_arrival mem).1]
      exact List.pairwise_singleton _ _
  · intro a old b new same
    obtain ⟨i, memI, rfl⟩ := List.mem_map.1 old
    obtain ⟨j, memJ, rfl⟩ := List.mem_map.1 new
    obtain ⟨_, ar, latest, isIt⟩ := step.joins_arrival memJ
    exact h.awaited i memI ar (latest ▸ List.mem_cons_self ..) (isIt.symm.trans same.symm)

/-- Whoever has joined is awaited no longer, and nobody of its identity is. -/
theorem Recorded.awaited_step (h : p.Recorded cs q) (step : Step q c r)
    (new : ∀ id ∈ c.mints, ∀ j ∈ p.present ++ joined cs, j.2.id ≠ id) :
    ∀ j ∈ p.present ++ joined (cs ++ [c]), ∀ ar ∈ r.arrivals, ar.member.id ≠ j.2.id := by
  rw [joined_snoc, ← List.append_assoc]
  intro j mem ar arrives
  rcases List.mem_append.1 mem with old | joins
  · rcases step.arrives arrives with before | fresh
    · exact h.awaited j old ar before
    · exact fun same => new _ fresh j old same.symm
  · obtain ⟨_, br, latest, isIt⟩ := step.joins_arrival joins
    have distinct := h.sound.distinct
    rw [latest] at distinct
    rw [isIt]
    exact ((List.pairwise_cons.1 distinct).1 ar arrives).symm

/-- No source joins a sink that has left, and no sink leaves while a source is there. -/
theorem Recorded.complete_step (h : p.Recorded cs q) (step : Step q c r) :
    ∀ g ∈ gone (cs ++ [c]), ∀ j ∈ p.present ++ joined (cs ++ [c]),
      j.2.isSourceOf g.2.id = true → j ∈ gone (cs ++ [c]) := by
  rw [joined_snoc, gone_snoc, ← List.append_assoc]
  intro g left j mem attached
  rcases List.mem_append.1 left with left | leaves
  · rcases List.mem_append.1 mem with old | new
    · exact List.mem_append_left _ (h.complete g left j old attached)
    · rw [h.isSourceOf_joins step new left] at attached
      cases attached
  · obtain ⟨_, none, _, free⟩ := h.sound.leaves_free step leaves
    rw [none, List.append_nil] at mem
    rcases List.mem_append.1 (h.balanced.mem_iff.1 mem) with before | there
    · exact List.mem_append_left _ before
    · rw [free j there] at attached
      cases attached

/-- Whoever leaves does not hang on anybody who left before. -/
theorem Recorded.ordered_step (h : p.Recorded cs q) (step : Step q c r) :
    (gone (cs ++ [c])).Pairwise fun a b => b.2.isSourceOf a.2.id = false := by
  rw [gone_snoc, List.pairwise_append]
  refine ⟨h.ordered, ?_, ?_⟩
  · cases leaves : c.leaves with
    | nil => exact List.Pairwise.nil
    | cons g rest =>
      have mem : g ∈ c.leaves := leaves ▸ List.mem_cons_self ..
      rw [← leaves, (h.sound.leaves_free step mem).1]
      exact List.pairwise_singleton _ _
  · intro g left j leaves
    exact h.isSourceOf_gone (h.sound.leaves_free step leaves).2.2.1 left

/-- **A step goes on record**, unless it releases a context, or hands out an identity that is in use
or was that of somebody on record. -/
theorem Recorded.step (h : p.Recorded cs q) (step : Step q c r)
    (fresh : ∀ id ∈ c.mints, ¬ q.Uses id)
    (new : ∀ id ∈ c.mints, ∀ j ∈ p.present ++ joined cs, j.2.id ≠ id)
    (kept : ∀ x, c ≠ .released x) : p.Recorded (cs ++ [c]) r where
  sound := h.sound.step step fresh
  balanced := by
    rw [joined_snoc, gone_snoc, ← List.append_assoc]
    have balance := h.sound.balance step fresh kept
    calc (p.present ++ joined cs) ++ c.joins
        _ |>.Perm ((gone cs ++ q.present) ++ c.joins) := h.balanced.append_right _
        _ |>.Perm (gone cs ++ (c.joins ++ q.present)) := by
          rw [List.append_assoc]
          exact List.perm_append_comm.append_left _
        _ |>.Perm (gone cs ++ (c.leaves ++ r.present)) := balance.append_left _
        _ |>.Perm ((gone cs ++ c.leaves) ++ r.present) := by rw [List.append_assoc]
  unique := h.unique_step step
  awaited := h.awaited_step step new
  complete := h.complete_step step
  ordered := h.ordered_step step

end Steps

/-- **Every run is a record**, as long as it releases no context and spares the identities in
use. -/
theorem Sound.recorded_run {p q : Population} {cs : List Change} (h : p.Sound) (run : Run p cs q)
    (spares : p.Spares cs) (kept : ∀ x, .released x ∉ cs) : p.Recorded cs q := by
  induction run with
  | nil => exact h.recorded
  | @snoc cs c q r run step ih =>
    have sooner : p.Recorded cs q :=
      ih spares.of_append fun x mem => kept x (List.mem_append_left _ mem)
    refine sooner.step step (h.toOrderly.unused_last run spares) ?_ fun x same => kept x ?_
    · intro id mem j came same
      have last : id ∈ minted (cs ++ [c]) := minted_snoc cs c ▸ List.mem_append_right _ mem
      have once := spares.once
      rw [minted_snoc] at once
      rcases List.mem_append.1 came with there | joins
      · obtain ⟨s, m, held, here, _⟩ := h.mem_present.1 there
        exact spares.unused id last (.member held (same ▸ here))
      · rcases h.toOrderly.uses_of_joined run joins with uses | sooner
        · exact spares.unused id last (same ▸ uses)
        · exact (List.nodup_append.1 once).2.2 _ sooner id mem same
    · rw [same]
      exact List.mem_append_right _ (List.mem_singleton_self _)

/-! ## Once, and in order -/

section Order

variable {p q : Population} {cs : List Change}

theorem Recorded.nodup_ids (h : p.Recorded cs q) : ((gone cs).map (·.2.id)).Nodup := by
  have all := (h.balanced.map (·.2.id)).nodup_iff.1 h.unique
  rw [List.map_append] at all
  exact (List.nodup_append.1 all).1

/-- Nobody else of the same identity has left. -/
theorem Recorded.filter_gone (h : p.Recorded cs q) {j : Id × Member} (left : j ∈ gone cs) :
    (gone cs).filter (·.2.id = j.2.id) = [j] := by
  have same : (gone cs).filter (·.2.id = j.2.id) = (gone cs).filter (· = j) := by
    refine List.filter_congr fun g mem => ?_
    rw [decide_eq_decide]
    refine ⟨fun same => ?_, fun same => by rw [same]⟩
    exact h.injective (h.came_of_gone mem) (h.came_of_gone left) same
  have once : (gone cs).Nodup := List.Nodup.of_map _ h.nodup_ids
  rw [same, List.filter_eq, List.count_eq_one_of_mem once left]
  rfl

/-- Nobody of the identity of somebody who is there has left. -/
theorem Recorded.filter_present (h : p.Recorded cs q) {j : Id × Member} (there : j ∈ q.present) :
    (gone cs).filter (·.2.id = j.2.id) = [] := by
  refine List.filter_eq_nil_iff.2 fun g left same => ?_
  have isIt : g = j :=
    h.injective (h.came_of_gone left) (h.came_of_present there) (of_decide_eq_true same)
  exact h.not_gone there (isIt ▸ left)

/-- Whoever was there has left, or still is there. -/
theorem Recorded.stays (h : p.Recorded cs q) {j : Id × Member} (there : j ∈ p.present) :
    j ∈ gone cs ∨ j ∈ q.present :=
  List.mem_append.1 (h.balanced.mem_iff.1 (List.mem_append_left _ there))

/-- Whoever was there and is not any more has left meanwhile, once. -/
theorem Recorded.leaves_once (h : p.Recorded cs q) {j : Id × Member} (there : j ∈ p.present)
    (absent : j ∉ q.present) : j ∈ gone cs ∧ (gone cs).filter (·.2.id = j.2.id) = [j] := by
  have left : j ∈ gone cs := (h.stays there).resolve_right absent
  exact ⟨left, h.filter_gone left⟩

/-- A source that leaves, leaves before its sink. -/
theorem sooner_of_ordered {left before after : List (Id × Member)} {j g : Id × Member}
    (ordered : left.Pairwise fun a b => b.2.isSourceOf a.2.id = false)
    (order : left = before ++ g :: after) (mem : j ∈ left)
    (attached : j.2.isSourceOf g.2.id = true) (other : j ≠ g) : j ∈ before := by
  rw [order] at mem ordered
  rcases List.mem_append.1 mem with sooner | notSooner
  · exact sooner
  · have later := (List.mem_cons.1 notSooner).resolve_left other
    have apart := (List.pairwise_cons.1 (List.pairwise_append.1 ordered).2.1).1 j later
    rw [attached] at apart
    cases apart

end Order

/-! ## Quotas -/

/-- The quotas are kept. -/
structure Within (p : Population) : Prop where
  agents : ∀ role, p.inUse role ≤ p.limits.agents role
  contexts : p.rosters.length ≤ p.limits.contexts

/-- If a roster has at most so many more of a role than before, so has the population. -/
theorem Orderly.live_put_le {p : Population} (h : p.Orderly) {x : Id} {r r' : Roster}
    {rest : List Arrival} (held : p.rosters.get? x = some r) {role : Role} {n : Nat}
    (le : (attendance x r').countP (·.2.role = role)
      ≤ (attendance x r).countP (·.2.role = role) + n) :
    Population.live { p with arrivals := rest, rosters := p.rosters.put x r' } role
      ≤ p.live role + n := by
  have before := (present_perm h.sorted held).countP_eq (·.2.role = role)
  have after := (present_put_perm h.sorted x r').countP_eq (·.2.role = role)
  rw [List.countP_append] at before after
  show ((p.rosters.put x r').flatMap _).countP _ ≤ (p.rosters.flatMap _).countP _ + _
  omega

/-- Whoever is entered on a roster is one more on it, if anything. -/
theorem countP_attendance_put (x : Id) {r : Roster} (sorted : r.Sorted) (m : Member)
    (role : Role) : (attendance x (r.put m.id m)).countP (·.2.role = role)
      ≤ (attendance x r).countP (·.2.role = role) + [(x, m.who)].countP (·.2.role = role) := by
  have put : Roster.people (r.put m.id m) = r.people.put m.id m.who := Table.mapValues_put ..
  have split : (attendance x (r.put m.id m)).Perm
      ((x, m.who) :: (r.people.erase m.id).map fun f => (x, f.2)) := by
    unfold attendance
    rw [put]
    exact (Table.perm_put_erase (Table.sorted_mapValues.2 sorted)).map _
  have fewer : ((r.people.erase m.id).map fun f => (x, f.2)).Sublist (attendance x r) :=
    List.Sublist.map _ List.filter_sublist
  rw [split.countP_eq, List.countP_cons, List.countP_singleton]
  exact Nat.add_le_add_right fewer.countP_le _

/-- Whoever leaves a roster, nobody else is on it then. -/
theorem countP_attendance_leave (x : Id) {r : Roster} (sorted : r.Sorted) (m : Member)
    (role : Role) : (attendance x (r.leave m)).countP (·.2.role = role)
      ≤ (attendance x r).countP (·.2.role = role) := by
  unfold attendance
  rw [Roster.people_leave sorted]
  exact (List.Sublist.map _ List.filter_sublist).countP_le

/-- Who is released is there no longer, and no one else comes. -/
theorem Orderly.live_detach {p : Population} (h : p.Orderly) {x : Id} {r : Roster}
    (held : p.rosters.get? x = some r) (role : Role) : (p.detach x).live role ≤ p.live role := by
  have split := (present_perm h.sorted held).countP_eq (·.2.role = role)
  rw [List.countP_append] at split
  show ((p.rosters.erase x).flatMap _).countP _ ≤ (p.rosters.flatMap _).countP _
  omega

/-- A context that is opened has nobody in it, and whoever was in one of its identity is held no
longer. -/
theorem Orderly.live_open {p : Population} (h : p.Orderly) (x : Id) (role : Role) :
    Population.live { p with rosters := p.rosters.put x [] } role ≤ p.live role := by
  cases held : p.rosters.get? x with
  | some r => exact h.live_put_le (n := 0) held (Nat.zero_le _)
  | none =>
    have joined : (p.rosters.put x []).Perm ((x, []) :: p.rosters) := Table.perm_put held
    have same := (joined.flatMap_right fun e => attendance e.1 e.2).countP_eq (·.2.role = role)
    exact Nat.le_of_eq same

/-- **Nobody is there who was not there before, but whoever joins.** -/
theorem Orderly.live_step {p q : Population} {c : Change} (h : p.Orderly) (step : Step p c q)
    (role : Role) : q.live role ≤ p.live role + c.joins.countP (·.2.role = role) := by
  cases step with
  | opened x assigned room => exact h.live_open x role
  | closed x empty => exact h.live_detach empty role
  | released x r held => exact h.live_detach held role
  | published ar rest m r latest held ready welcome =>
    exact h.live_put_le held (countP_attendance_put _ (h.filed_of_held held).sorted m role)
  | tornDown x id r held =>
    refine h.live_put_le held (Nat.le_of_eq ?_)
    unfold attendance
    rw [Roster.people_tearDown (h.filed_of_held held).sorted]
    rfl
  | left x r m held here free =>
    exact h.live_put_le held (countP_attendance_leave x (h.filed_of_held held).sorted m role)
  | _ => exact Nat.le_add_right _ _

theorem pending_cons {p : Population} {ar : Arrival} {rest : List Arrival}
    (latest : p.arrivals = ar :: rest) (role : Role) :
    p.pending role = rest.countP (fun br => br.counted && br.member.role = role)
      + if ar.counted && ar.member.role = role then 1 else 0 := by
  unfold pending
  rw [latest, List.countP_cons]

/-- What a change takes of a quota: only somebody new takes anything. -/
theorem Orderly.inUse_step {p q : Population} {c : Change} (h : p.Orderly) (step : Step p c q)
    (within : c.passesQuota = false) (role : Role) :
    q.inUse role ≤ p.inUse role + c.takes role := by
  have live := h.live_step step role
  unfold inUse
  cases step with
  | limited limits => cases within
  | begun ar assigned new room r held anchored =>
    have pending := pending_cons (p := { p with arrivals := ar :: p.arrivals }) rfl role
    show p.live role + _ ≤ _
    rw [pending]
    exact Nat.le_of_eq (Nat.add_assoc ..).symm
  | dropped ar rest latest =>
    rw [pending_cons latest]
    exact Nat.add_le_add_left (Nat.le_add_right _ _) _
  | published ar rest m r latest held ready welcome =>
    have counted : ar.counted = true := by simpa [Change.passesQuota] using within
    have isRole : m.who.role = ar.member.role := by rw [Member.role_who, ready.eq]
    simp only [Change.joins, List.countP_singleton, isRole, decide_eq_true_eq] at live
    rw [pending_cons latest, counted, Bool.true_and]
    simp only [decide_eq_true_eq]
    show _ + List.countP _ rest ≤ _
    omega
  | stranded ar rest m r latest gone kept ready welcome =>
    rw [pending_cons latest]
    exact Nat.add_le_add_left (Nat.le_add_right _ _) _
  | _ => exact Nat.add_le_add_right live _

theorem Step.limits_eq {p q : Population} {c : Change} (step : Step p c q)
    (within : c.passesQuota = false) : q.limits = p.limits := by
  cases step with
  | limited limits => cases within
  | _ => rfl

/-- Only somebody who begins takes room, and it has found some. -/
theorem Step.room {p q : Population} {c : Change} (step : Step p c q) (role : Role) :
    c.takes role = 0 ∨ (c.takes role = 1 ∧ p.inUse role < p.limits.agents role) := by
  cases step with
  | begun ar assigned new room r held anchored =>
    by_cases takes : (ar.counted && ar.member.role = role) = true
    · refine .inr ⟨if_pos takes, ?_⟩
      rw [Bool.and_eq_true, decide_eq_true_eq] at takes
      exact takes.2 ▸ room takes.1
    · exact .inl (if_neg takes)
  | _ => exact .inl rfl

/-- There is at most one context more when one is opened. -/
theorem length_put_le {rosters : Table Id Roster} (sorted : rosters.Sorted) (x : Id)
    (r : Roster) : (rosters.put x r).length ≤ rosters.length + 1 := by
  rw [(Table.perm_put_erase sorted).length_eq]
  exact Nat.succ_le_succ (List.length_filter_le ..)

/-- Contexts are opened only while there is room for them. -/
theorem Orderly.length_step {p q : Population} {c : Change} (h : p.Orderly) (step : Step p c q)
    (contexts : p.rosters.length ≤ p.limits.contexts) : q.rosters.length ≤ p.limits.contexts := by
  cases step with
  | opened x assigned fits => exact Nat.le_trans (length_put_le h.sorted ..) fits
  | closed x empty => exact Nat.le_trans (List.length_filter_le ..) contexts
  | released x r held => exact Nat.le_trans (List.length_filter_le ..) contexts
  | published ar rest m r latest held ready welcome =>
    rw [Table.length_put_of_get? h.sorted held]
    exact contexts
  | tornDown x id r held =>
    rw [Table.length_put_of_get? h.sorted held]
    exact contexts
  | left x r m held here free =>
    rw [Table.length_put_of_get? h.sorted held]
    exact contexts
  | _ => exact contexts

/-- **The quotas stay kept**, whatever happens within them: whoever begins finds room, and takes the
same room later. -/
theorem Within.step {p q : Population} {c : Change} (h : p.Within) (orderly : p.Orderly)
    (step : Step p c q) (within : c.passesQuota = false) : q.Within where
  agents role := by
    have inUse := orderly.inUse_step step within role
    have agents := h.agents role
    rw [step.limits_eq within]
    rcases step.room role with none | ⟨one, room⟩ <;> omega
  contexts := by
    rw [step.limits_eq within]
    exact orderly.length_step step h.contexts

/-- The quotas are kept by every run that does not go past them. -/
theorem Within.run {p q : Population} {cs : List Change} (h : p.Within) (orderly : p.Orderly)
    (run : Run p cs q) (within : ∀ c ∈ cs, c.passesQuota = false) :
    q.Within ∧ q.limits = p.limits := by
  induction run with
  | nil => exact ⟨h, rfl⟩
  | @snoc cs c q r run step ih =>
    obtain ⟨before, limits⟩ := ih fun c mem => within c (List.mem_append_left _ mem)
    have now := within c (List.mem_append_right _ (List.mem_singleton_self _))
    exact ⟨before.step (orderly.run run) step now, (step.limits_eq now).trans limits⟩

end Population

end CastHub
