import CastHub.Proofs.Reordering
/-!
# What a receiver reports as lost

Each report of a receiver says which part of the packets that were to be expected since the one
before it is lost. What is lost in all may fall as well as rise, because a late packet or a repeated
one makes up for a missing one, and the two differences are taken separately. Still the part that is
lost is a proper one: the range only ever grows when a packet comes, so of the packets by which it
has grown since the latest report at least one was heard.

This holds whatever numbers come, as long as the cycles are able to count the wraps.

* `Range.turns` : how many wraps a range counts while some numbers come;
* `Range.expected_le_hear` : no number makes the range smaller;
* `Receiver.Reported` : what ties the latest report to the state of the receiver, with
  `Receiver.reported_fresh` for the beginning, `Receiver.Reported.media` and
  `Receiver.Reported.report` for one event and `Receiver.Reported.after` for a run;
* `Receiver.Reported.sum_intervals` : what the reports expected adds up;
* `Receiver.losses_are_reported` : what a report then says.
-/

namespace CastHub.Rtcp

/-! ## The range only grows -/

namespace Range

variable {t : Range} {seq : UInt16}

/-- How many wraps are counted while some numbers come. -/
def turns (t : Range) : List UInt16 → Nat
  | [] => 0
  | seq :: rest => (if t.wraps seq then 1 else 0) + (t.hear seq).turns rest

/-- A wrap adds one to the cycles as long as there is room for it. -/
theorem toNat_cyclesAfter (room : t.cycles.toNat + (if t.wraps seq then 1 else 0) < 0x10000) :
    (t.cyclesAfter seq).toNat = t.cycles.toNat + (if t.wraps seq then 1 else 0) := by
  unfold cyclesAfter
  split
  · rename_i wrap
    rw [if_pos wrap] at room
    exact (UInt16.toNat_add t.cycles 1).trans (Nat.mod_eq_of_lt room)
  · rfl

/-- The beginning of the range only moves down. -/
theorem baseAfter_le {base : UInt16} (found : t.base = some base) :
    (t.baseAfter seq).toNat ≤ base.toNat := by
  unfold baseAfter
  rw [found]
  dsimp only
  split
  · rename_i lower
    exact Nat.le_of_lt (UInt16.lt_iff_toNat_lt.1 lower.2)
  · exact Nat.le_refl _

/-- The end of the range only moves up: at a wrap it falls, and the cycles make up for that. -/
theorem position_le_hear (room : t.cycles.toNat + (if t.wraps seq then 1 else 0) < 0x10000) :
    t.position ≤ (t.hear seq).position := by
  have bound := t.maxSeq.toNat_lt
  have cycles := toNat_cyclesAfter room
  show _ ≤ (t.cyclesAfter seq).toNat * 0x10000 + (if _ then seq else t.maxSeq).toNat
  unfold position
  by_cases wrap : t.wraps seq
  · rw [if_pos wrap] at cycles
    omega
  · rw [if_neg wrap] at cycles
    split
    · rename_i above
      have above := UInt16.lt_iff_toNat_lt.1 (above.resolve_left wrap)
      omega
    · omega

/-- No number makes the range smaller, as long as the cycles do not wrap. -/
theorem expected_le_hear (room : t.cycles.toNat + (if t.wraps seq then 1 else 0) < 0x10000) :
    t.expected ≤ (t.hear seq).expected := by
  cases found : t.base with
  | none =>
    have nothing : t.expected = 0 := by rw [expected, found]; rfl
    omega
  | some base =>
    have start : (t.baseAfter seq).toNat ≤ _ := baseAfter_le found
    have stop := position_le_hear room
    have here := expected_eq_position found
    have there : (t.hear seq).expected = _ := expected_eq_position rfl
    rw [here, there]
    omega

end Range

/-! ## From one report to the next -/

namespace Receiver

variable {r : Receiver} {seen : Nat}

/-- How many wraps are counted in a run. -/
def turns (r : Receiver) (events : List Event) : Nat := r.range.turns (events.filterMap Event.seq?)

theorem turns_cons (e : Event) (rest : List Event) :
    r.turns (e :: rest) = r.turns [e] + (r.step e).turns rest := by
  unfold turns
  rw [range_step]
  cases found : e.seq? with
  | none =>
    rw [List.filterMap_cons_none found, List.filterMap_cons_none found]
    exact (Nat.zero_add _).symm
  | some seq =>
    rw [List.filterMap_cons_some found, List.filterMap_cons_some found]
    rfl

/-- As long as there is room, the cycles count the wraps. -/
theorem toNat_cycles_step {e : Event} (room : r.cycles.toNat + r.turns [e] < 0x10000) :
    (r.step e).cycles.toNat = r.cycles.toNat + r.turns [e] := by
  have range := range_step (r := r) e
  have cycles : (r.step e).cycles = (e.seq?.elim r.range r.range.hear).cycles :=
    congrArg Range.cycles range
  rw [cycles]
  unfold turns at room ⊢
  cases found : e.seq? with
  | none =>
    rw [List.filterMap_cons_none found]
    rfl
  | some seq =>
    rw [List.filterMap_cons_some found] at room ⊢
    exact Range.toNat_cyclesAfter room

/-- If there is room for the wraps of a run, there is for those of its first event, and then for
those of the others. -/
theorem room_cons {e : Event} {rest : List Event}
    (room : r.cycles.toNat + r.turns (e :: rest) < 0x10000) :
    r.cycles.toNat + r.turns [e] < 0x10000
      ∧ (r.step e).cycles.toNat + (r.step e).turns rest < 0x10000 := by
  rw [turns_cons] at room
  have here : r.cycles.toNat + r.turns [e] < 0x10000 := by omega
  rw [toNat_cycles_step here]
  exact ⟨here, by omega⟩

/-- What ties the latest report, before which `seen` packets had come, to the state of the receiver:
the range has grown since only if a packet has come. Before the first report this is meant of the
beginning. -/
structure Reported (r : Receiver) (seen : Nat) : Prop where
  seen_le : seen ≤ r.counters.packets
  lastLost : r.lastLost = r.lastExpected - seen
  lastExpected_le : r.lastExpected ≤ r.expected
  grown : r.lastExpected < r.expected → seen < r.counters.packets

theorem reported_fresh : ({} : Receiver).Reported 0 :=
  ⟨Nat.le_refl 0, rfl, Nat.le_refl 0, fun grown => absurd grown (Nat.lt_irrefl 0)⟩

theorem lastExpected_onMedia (p : MediaPacket) (now : UInt64) :
    (r.onMedia p now).lastExpected = r.lastExpected := by
  rw [onMedia_eq]

/-- A packet leaves the report before it in place, and the range grows by it if at all. -/
theorem Reported.media (h : r.Reported seen) (p : MediaPacket) (now : UInt64)
    (room : r.cycles.toNat + (if r.range.wraps p.seq then 1 else 0) < 0x10000) :
    (r.onMedia p now).Reported seen := by
  have lastExpected := lastExpected_onMedia (r := r) p now
  have lastLost : (r.onMedia p now).lastLost = r.lastLost := by rw [onMedia_eq]
  have packets : (r.onMedia p now).counters.packets = r.counters.packets + 1 :=
    congrArg Range.packets (range_onMedia p now)
  have more : r.expected ≤ (r.onMedia p now).expected := by
    rw [expected_eq_range, expected_eq_range, range_onMedia]
    exact Range.expected_le_hear room
  have seen_le := h.seen_le
  constructor
  · rw [packets]
    omega
  · rw [lastLost, lastExpected]
    exact h.lastLost
  · rw [lastExpected]
    exact h.lastExpected_le.trans more
  · intro _
    rw [packets]
    omega

/-- A report takes the place of the one before it. -/
theorem Reported.report (ssrc stream : UInt32) (now : UInt64) :
    (r.report ssrc stream now).2.Reported r.counters.packets :=
  ⟨Nat.le_refl _, rfl, Nat.le_refl _, fun grown => absurd grown (Nat.lt_irrefl _)⟩

/-- Whatever happens, there is a latest report, unless somebody looks at the intervals without
making one. -/
theorem Reported.step (h : r.Reported seen) {e : Event} (look : e ≠ .expectedInterval)
    (look' : e ≠ .lostInterval) (room : r.cycles.toNat + r.turns [e] < 0x10000) :
    ∃ seen, (r.step e).Reported seen := by
  cases e with
  | media p now => exact ⟨seen, h.media p now room⟩
  | packet p now =>
    refine ⟨seen, ?_⟩
    cases p <;> exact ⟨h.seen_le, h.lastLost, h.lastExpected_le, h.grown⟩
  | report ssrc stream now => exact ⟨_, Reported.report ssrc stream now⟩
  | expectedInterval => exact absurd rfl look
  | lostInterval => exact absurd rfl look'

/-- There is a latest report at the end of a run. -/
theorem Reported.after (h : r.Reported seen) {events : List Event}
    (look : .expectedInterval ∉ events) (look' : .lostInterval ∉ events)
    (room : r.cycles.toNat + r.turns events < 0x10000) :
    ∃ seen, (r.after events).Reported seen := by
  induction events generalizing r seen with
  | nil => exact ⟨seen, h⟩
  | cons e rest ih =>
    obtain ⟨other, later⟩ := List.ne_and_not_mem_of_not_mem_cons look
    obtain ⟨other', later'⟩ := List.ne_and_not_mem_of_not_mem_cons look'
    obtain ⟨here, behind⟩ := room_cons room
    obtain ⟨seen, h⟩ := h.step other.symm other'.symm here
    exact ih h later later' behind

/-! ## What a report says -/

/-- What is lost since the latest report is less than what was to be expected. -/
theorem Reported.lost_lt (h : r.Reported seen) (some : 0 < r.expectedInterval.1) :
    r.lostInterval.1 < r.expectedInterval.1 := by
  have grown : r.lastExpected < r.expected := Nat.lt_of_sub_pos some
  have heard := h.grown grown
  show r.expected - r.counters.packets - r.lastLost < r.expected - r.lastExpected
  rw [h.lastLost]
  omega

/-- If nothing was to be expected since the latest report, nothing is lost. -/
theorem Reported.lost_eq_zero (h : r.Reported seen) (none : r.expectedInterval.1 = 0) :
    r.lostInterval.1 = 0 := by
  have same : r.expected ≤ r.lastExpected := Nat.le_of_sub_eq_zero none
  have seen_le := h.seen_le
  show r.expected - r.counters.packets - r.lastLost = 0
  rw [h.lastLost]
  omega

/-- A proper part is told exactly: it is never cut down to 255. -/
theorem toNat_fractionLost {lost expected : Nat} (proper : expected = 0 ∨ lost < expected) :
    (fractionLost lost expected).toNat = 0x100 * lost / expected := by
  unfold fractionLost
  split
  · rename_i zero
    rw [zero, Nat.div_zero]
    rfl
  · rename_i some
    have below : lost * 0x100 / expected < 0x100 := by
      rw [Nat.div_lt_iff_lt_mul (Nat.pos_of_ne_zero some)]
      omega
    rw [Nat.min_eq_left (Nat.le_of_lt_succ below), UInt8.toNat_ofNat', Nat.mod_eq_of_lt below,
      Nat.mul_comm]

/-- What a report expects since the one before it. -/
def looked (r : Receiver) : Event → List Nat
  | .report .. => [r.expectedInterval.1]
  | .media .. | .packet .. | .expectedInterval | .lostInterval => []

/-- What the reports of a run expect, each since the one before it. -/
def intervals (r : Receiver) : List Event → List Nat
  | [] => []
  | e :: rest => r.looked e ++ (r.step e).intervals rest

theorem intervals_append (events later : List Event) :
    r.intervals (events ++ later) = r.intervals events ++ (r.after events).intervals later := by
  induction events generalizing r with
  | nil => rfl
  | cons e rest ih =>
    rw [List.cons_append, intervals, intervals, ih, List.append_assoc]
    rfl

/-- What one event was expected to bring is added to what the latest report expected in all. -/
theorem Reported.sum_looked (h : r.Reported seen) {e : Event} (look : e ≠ .expectedInterval) :
    r.lastExpected + (r.looked e).sum = (r.step e).lastExpected := by
  cases e with
  | media p now =>
    exact (lastExpected_onMedia p now).symm
  | packet p now => cases p <;> rfl
  | report ssrc stream now =>
    show r.lastExpected + (r.expected - r.lastExpected + 0) = r.expected
    have before := h.lastExpected_le
    omega
  | expectedInterval => exact absurd rfl look
  | lostInterval => rfl

/-- What the reports of a run expected, each since the one before it, is what the latest of them
expected in all. -/
theorem Reported.sum_intervals (h : r.Reported seen) {events : List Event}
    (look : .expectedInterval ∉ events) (look' : .lostInterval ∉ events)
    (room : r.cycles.toNat + r.turns events < 0x10000) :
    r.lastExpected + (r.intervals events).sum = (r.after events).lastExpected := by
  induction events generalizing r seen with
  | nil => rfl
  | cons e rest ih =>
    obtain ⟨other, later⟩ := List.ne_and_not_mem_of_not_mem_cons look
    obtain ⟨other', later'⟩ := List.ne_and_not_mem_of_not_mem_cons look'
    obtain ⟨here, behind⟩ := room_cons room
    obtain ⟨seen, on⟩ := h.step other.symm other'.symm here
    rw [intervals, List.sum_append, ← Nat.add_assoc, h.sum_looked other.symm]
    exact ih on later later' behind

/-- **A report tells exactly what was lost since the one before it.** Let anything happen to a
receiver, with any sequence numbers, as long as fewer than 65536 wraps are counted and nobody but
its reports looks at the intervals. If it then makes a report, of the packets that were to be
expected since the one before it not all are lost, and none if none was to be expected; so the part
that it tells is exact. What it tells of all losses is right up to 24 bits. And what all reports so
far, this one included, expected since the ones before them makes up what is expected in all. -/
theorem losses_are_reported (events : List Event) (ssrc stream : UInt32) (now : UInt64)
    (look : .expectedInterval ∉ events) (look' : .lostInterval ∉ events)
    (few : ({} : Receiver).turns events < 0x10000) :
    let r := ({} : Receiver).after events
    let expected := r.expectedInterval.1
    let lost := r.lostInterval.1
    (expected = 0 → lost = 0) ∧ (0 < expected → lost < expected)
      ∧ (∃ item, (r.report ssrc stream now).1.items = [item]
        ∧ item.fractionLost.toNat = 0x100 * lost / expected
        ∧ item.cumulativeLost.toNat = min r.lost (2 ^ 24 - 1))
      ∧ (({} : Receiver).intervals (events ++ [.report ssrc stream now])).sum = r.expected := by
  intro r expected lost
  have room : ({} : Receiver).cycles.toNat + ({} : Receiver).turns events < 0x10000 := by
    show 0 + _ < _
    omega
  obtain ⟨seen, h⟩ : ∃ seen, r.Reported seen := reported_fresh.after look look' room
  have none : expected = 0 → lost = 0 := h.lost_eq_zero
  have some : 0 < expected → lost < expected := h.lost_lt
  refine ⟨none, some, ⟨r.item stream now, rfl, ?_, ?_⟩, ?_⟩
  · apply toNat_fractionLost
    rcases Nat.eq_zero_or_pos expected with zero | pos
    · exact .inl zero
    · exact .inr (some pos)
  · show (UInt32.ofNat (min r.lost 0xFFFFFF)).toNat = _
    rw [UInt32.toNat_ofNat']
    omega
  · have before : 0 + (({} : Receiver).intervals events).sum = r.lastExpected :=
      reported_fresh.sum_intervals look look' room
    have here : r.lastExpected + (expected + 0) = r.expected :=
      h.sum_looked (e := .report ssrc stream now) nofun
    rw [intervals_append, List.sum_append]
    show _ + (expected + 0) = _
    omega

/-- A stream that loses three packets before a report; then one of them comes late and another one
is lost, which another report takes for no loss; then three are lost. -/
def thinning : List Event :=
  [.media ⟨100, 0, 1700000000000, 48000, 100⟩ 1000,
   .media ⟨104, 3840, 1700000000080, 48000, 100⟩ 1080, .report 8 7 1090,
   .media ⟨101, 960, 1700000000020, 48000, 100⟩ 1100,
   .media ⟨106, 5760, 1700000000120, 48000, 100⟩ 1120, .report 8 7 1130,
   .media ⟨110, 9600, 1700000000200, 48000, 100⟩ 1200]

/-- So it is with that stream: three of four are lost since the second report, and six of eleven in
all. -/
theorem losses_are_reported_thinning :
    let r := ({} : Receiver).after thinning
    ({} : Receiver).turns thinning < 0x10000 ∧ r.expectedInterval.1 = 4 ∧ r.lostInterval.1 = 3
      ∧ (∃ item, (r.report 8 7 1210).1.items = [item] ∧ item.fractionLost.toNat = 192
        ∧ item.cumulativeLost.toNat = 6)
      ∧ (({} : Receiver).intervals (thinning ++ [.report 8 7 1210])).sum = 11 := by
  have few : ({} : Receiver).turns thinning < 0x10000 := by decide
  obtain ⟨-, -, told, sum⟩ := losses_are_reported thinning 8 7 1210 (by simp [thinning])
    (by simp [thinning]) few
  exact ⟨few, rfl, rfl, told, sum⟩

end Receiver

end CastHub.Rtcp
