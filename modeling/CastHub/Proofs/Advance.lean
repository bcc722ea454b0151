import CastHub.Proofs.Losses
/-!
# Sequence numbers never run backwards

Somebody sends packets with whatever sequence numbers he likes, in whatever order. He cannot make a
receiver expect fewer packets than before, nor make its range end before it begins, and he cannot
make it count wraps at will: between one and the next more than `Receiver.wrapDistance` packets have
to come. Only when the cycles themselves have wrapped, after 65536 wraps, does the range begin anew.

At a wrap the maximum falls, but by less than a cycle; before the first wrap the beginning may fall,
but then a larger range is what comes of it.

* `Range.Spans` : a range ends at its beginning or later, with `Range.Spans.hear` and
  `Range.Spans.foldl`;
* `Range.expected_le_foldl` : no run of numbers makes the range smaller;
* `Range.Paced` : how many wraps there were for so many packets, with `Range.paced_fresh`,
  `Range.Paced.hear` and `Range.Paced.foldl`;
* `Range.Paced.turns_le` and `Range.Paced.packets_add_le` : there are few of them, and two are far
  apart;
* `Receiver.sequence_never_runs_backwards` : all this of a receiver.
-/

namespace CastHub.Rtcp

namespace Range

variable {t : Range} {seq next : UInt16} {turns : Nat} {numbers rest : List UInt16}

/-! ## From the beginning to the end -/

/-- A range ends at its beginning or later, and it has one as soon as a packet has come. -/
structure Spans (t : Range) : Prop where
  begun : 0 < t.packets → ∃ base, t.base = some base
  base_le : ∀ base, t.base = some base → base.toNat ≤ t.position

theorem spans_fresh : ({} : Range).Spans := by
  constructor
  · intro heard
    exact absurd heard (Nat.lt_irrefl 0)
  · intro base found
    exact nomatch found

/-- A number lies at the end of the range after it, or before. -/
theorem toNat_le_position_hear (seq : UInt16) : seq.toNat ≤ (t.hear seq).position := by
  have max : seq.toNat ≤ (t.hear seq).maxSeq.toNat := by
    show _ ≤ (if _ then seq else t.maxSeq).toNat
    split
    · exact Nat.le_refl _
    · rename_i behind
      have low : ¬ t.maxSeq < seq := fun ahead => behind (.inr ahead)
      rw [UInt16.lt_iff_toNat_lt] at low
      omega
  unfold position
  omega

/-- One more number leaves the end behind the beginning: the beginning only moves down, and if the
number begins the range, that ends there or later. -/
theorem Spans.hear (h : t.Spans)
    (room : t.cycles.toNat + (if t.wraps seq then 1 else 0) < 0x10000) : (t.hear seq).Spans := by
  constructor
  · intro _
    exact ⟨t.baseAfter seq, rfl⟩
  · intro base found
    obtain rfl : t.baseAfter seq = base := Option.some.inj found
    cases before : t.base with
    | none =>
      have first : t.baseAfter seq = seq := by
        unfold baseAfter
        rw [before]
      rw [first]
      exact toNat_le_position_hear seq
    | some start =>
      have lower : (t.baseAfter seq).toNat ≤ start.toNat := baseAfter_le before
      have further := position_le_hear room
      have base_le := h.base_le start before
      omega

/-- The packets from the beginning to the end are counted without anything being cut off. -/
theorem Spans.expected_add (h : t.Spans) {base : UInt16} (found : t.base = some base) :
    1 ≤ t.expected ∧ t.expected + base.toNat = t.position + 1 := by
  have base_le := h.base_le base found
  rw [expected_eq_position found]
  omega

/-! ## Runs of numbers -/

theorem turns_append (numbers rest : List UInt16) :
    t.turns (numbers ++ rest) = t.turns numbers + (numbers.foldl hear t).turns rest := by
  induction numbers generalizing t with
  | nil => exact (Nat.zero_add _).symm
  | cons seq numbers ih =>
    rw [List.cons_append, turns, turns, ih, Nat.add_assoc]
    rfl

/-- If there is room for the wraps of a run, there is for its first number, and then for the
others. -/
theorem room_hear (room : t.cycles.toNat + t.turns (seq :: numbers) < 0x10000) :
    t.cycles.toNat + (if t.wraps seq then 1 else 0) < 0x10000
      ∧ (t.hear seq).cycles.toNat + (t.hear seq).turns numbers < 0x10000 := by
  rw [turns] at room
  have here : t.cycles.toNat + (if t.wraps seq then 1 else 0) < 0x10000 := by omega
  have cycles : (t.hear seq).cycles.toNat = _ := toNat_cyclesAfter here
  rw [cycles]
  exact ⟨here, by omega⟩

theorem Spans.foldl (h : t.Spans) (room : t.cycles.toNat + t.turns numbers < 0x10000) :
    (numbers.foldl Range.hear t).Spans := by
  induction numbers generalizing t with
  | nil => exact h
  | cons seq numbers ih =>
    obtain ⟨here, behind⟩ := room_hear room
    exact ih (h.hear here) behind

/-- No run of numbers makes the range smaller, as long as the cycles do not wrap. -/
theorem expected_le_foldl (room : t.cycles.toNat + t.turns numbers < 0x10000) :
    t.expected ≤ (numbers.foldl hear t).expected := by
  induction numbers generalizing t with
  | nil => exact Nat.le_refl _
  | cons seq numbers ih =>
    obtain ⟨here, behind⟩ := room_hear room
    exact (expected_le_hear here).trans (ih behind)

/-! ## The pace of wraps -/

/-- A range for which `turns` wraps were counted: for each of them but the first it took `0x2000`
packets. -/
structure Paced (t : Range) (turns : Nat) : Prop where
  /-- There is a maximum only once a packet has come. -/
  heard : 0 < t.maxSeq.toNat → 0 < t.packets
  lastWrap_le : t.lastWrap ≤ t.packets
  spaced : 0x2000 * turns < t.lastWrap + 0x2000
  cycles : t.cycles.toNat = turns % 0x10000

theorem paced_fresh : ({} : Range).Paced 0 := by
  constructor
  · intro positive
    exact absurd positive (Nat.lt_irrefl 0)
  · exact Nat.le_refl 0
  · decide
  · rfl

/-- When a number begins a new cycle, packets have come, and either no wrap was counted before or
`0x2000` packets have come since. -/
theorem Paced.of_wraps (h : t.Paced turns) (wrap : t.wraps seq) :
    0 < t.packets ∧ (t.lastWrap = 0 ∨ t.lastWrap + 0x2000 ≤ t.packets) := by
  obtain ⟨high, -, since⟩ := wrap
  have wrapHigh : Receiver.wrapHigh.toNat = 0xFF00 := rfl
  have distance : Receiver.wrapDistance = 0x1FFF := rfl
  rw [UInt16.lt_iff_toNat_lt, wrapHigh] at high
  have heard := h.heard (by omega)
  have lastWrap_le := h.lastWrap_le
  omega

/-- One more number keeps the pace, whether it wraps or not. -/
theorem Paced.hear (h : t.Paced turns) (seq : UInt16) :
    (t.hear seq).Paced (turns + if t.wraps seq then 1 else 0) := by
  have lastWrap_le := h.lastWrap_le
  have spaced := h.spaced
  have cycles := h.cycles
  constructor
  · intro _
    exact Nat.succ_pos t.packets
  · show (if _ then t.packets else t.lastWrap) ≤ t.packets + 1
    split <;> omega
  · show _ < (if _ then t.packets else t.lastWrap) + _
    by_cases wrap : t.wraps seq
    · obtain ⟨heard, since⟩ := h.of_wraps wrap
      rw [if_pos wrap, if_pos wrap]
      omega
    · rw [if_neg wrap, if_neg wrap]
      exact spaced
  · show (t.cyclesAfter seq).toNat = _
    unfold cyclesAfter
    by_cases wrap : t.wraps seq
    · rw [if_pos wrap, if_pos wrap, UInt16.toNat_add, cycles]
      exact Nat.mod_add_mod ..
    · rw [if_neg wrap, if_neg wrap]
      exact cycles

theorem Paced.foldl (h : t.Paced turns) (numbers : List UInt16) :
    (numbers.foldl Range.hear t).Paced (turns + t.turns numbers) := by
  induction numbers generalizing t turns with
  | nil => exact h
  | cons seq numbers ih =>
    rw [Range.turns, ← Nat.add_assoc]
    exact ih (h.hear seq)

/-- The packets that have come allow for so many wraps. -/
theorem Paced.turns_le (h : t.Paced turns) : turns ≤ 1 + t.packets / 0x2000 := by
  have lastWrap_le := h.lastWrap_le
  have spaced := h.spaced
  omega

/-- The latest wrap only moves up. -/
theorem Paced.lastWrap_le_foldl (h : t.Paced turns) (numbers : List UInt16) :
    t.lastWrap ≤ (numbers.foldl Range.hear t).lastWrap := by
  induction numbers generalizing t turns with
  | nil => exact Nat.le_refl _
  | cons seq numbers ih =>
    have here : t.lastWrap ≤ (t.hear seq).lastWrap := by
      have lastWrap_le := h.lastWrap_le
      show _ ≤ if _ then t.packets else t.lastWrap
      split <;> omega
    exact here.trans (ih (h.hear seq))

/-- If a number begins a new cycle, and after some others one does again, `0x2000` packets lie
between the two at least. -/
theorem Paced.packets_add_le (h : t.Paced turns) (wrap : t.wraps seq)
    (again : ((seq :: numbers).foldl Range.hear t).wraps next) :
    t.packets + 0x2000 ≤ ((seq :: numbers).foldl Range.hear t).packets := by
  obtain ⟨heard, -⟩ := h.of_wraps wrap
  obtain ⟨-, since⟩ := (h.foldl (seq :: numbers)).of_wraps again
  have counted : (t.hear seq).lastWrap = t.packets := if_pos wrap
  have later : (t.hear seq).lastWrap ≤ ((seq :: numbers).foldl Range.hear t).lastWrap :=
    (h.hear seq).lastWrap_le_foldl numbers
  omega

end Range

/-! ## A receiver -/

namespace Receiver

variable {r : Receiver}

theorem after_append (events later : List Event) :
    r.after (events ++ later) = (r.after events).after later := List.foldl_append ..

theorem turns_append (events later : List Event) :
    r.turns (events ++ later) = r.turns events + (r.after events).turns later := by
  unfold turns
  rw [List.filterMap_append, Range.turns_append, range_after]

/-- The wraps of a run keep the pace. -/
theorem paced_after (events : List Event) :
    (({} : Receiver).after events).range.Paced (({} : Receiver).turns events) := by
  have paced := Range.paced_fresh.foldl (events.filterMap Event.seq?)
  rw [Nat.zero_add] at paced
  rw [range_after]
  exact paced

/-- **Sequence numbers never run backwards.** Let anything happen to a receiver, with any sequence
numbers in any order, as long as fewer than 65536 wraps are counted. At no time does it expect fewer
packets than it did at an earlier one. Once a packet has come, it expects at least one, and what it
expects reaches from the beginning of its range to the end: the beginning is never taken off more
than there is. Two packets that it counts as wraps lie at least `0x2000` packets apart, so its
cycles are at most one more than the times that `0x2000` packets have come. -/
theorem sequence_never_runs_backwards (events : List Event)
    (few : ({} : Receiver).turns events < 0x10000) :
    let r := ({} : Receiver).after events
    (∀ before later last, events = before ++ later ++ last →
        (({} : Receiver).after before).expected ≤ (({} : Receiver).after (before ++ later)).expected)
      ∧ (0 < r.counters.packets → 1 ≤ r.expected ∧ ∃ base, r.base = some base
        ∧ r.expected + base.toNat = (r.cycles.toNat <<< 16) + r.maxSeq.toNat + 1)
      ∧ (∀ before p time between q time' last,
        events = before ++ .media p time :: between ++ .media q time' :: last →
        let u := ({} : Receiver).after before
        let v := ({} : Receiver).after (before ++ .media p time :: between)
        u.wraps p.seq → v.wraps q.seq → u.counters.packets + 0x2000 ≤ v.counters.packets)
      ∧ r.cycles.toNat ≤ 1 + r.counters.packets / 0x2000 := by
  intro r
  have paced : r.range.Paced (({} : Receiver).turns events) := paced_after events
  refine ⟨?_, ?_, ?_, ?_⟩
  · intro before later last split
    have here := (paced_after before).cycles
    rw [split, List.append_assoc, turns_append, turns_append] at few
    rw [expected_eq_range, expected_eq_range, after_append, range_after later]
    apply Range.expected_le_foldl
    show _ + (({} : Receiver).after before).turns later < _
    omega
  · intro heard
    have spans : r.range.Spans := by
      have room : ({} : Range).cycles.toNat + ({} : Receiver).turns events < 0x10000 := by
        show 0 + _ < _
        omega
      have spans := Range.spans_fresh.foldl room
      rw [show r.range = _ from range_after events]
      exact spans
    obtain ⟨base, found⟩ := spans.begun heard
    obtain ⟨positive, sum⟩ := spans.expected_add found
    rw [← expected_eq_range] at positive sum
    refine ⟨positive, base, found, ?_⟩
    rw [Nat.shiftLeft_eq]
    exact sum
  · intro before p time between q time' last _ u v first second
    have range : v.range = ((p.seq :: between.filterMap Event.seq?).foldl Range.hear u.range) := by
      show (({} : Receiver).after (before ++ .media p time :: between)).range = _
      rw [after_append, range_after]
      rfl
    rw [wraps_iff_range] at first second
    rw [range] at second
    have apart := (paced_after before).packets_add_le first second
    rw [← range] at apart
    exact apart
  · have most := paced.turns_le
    have cycles := paced.cycles
    show r.range.cycles.toNat ≤ 1 + r.range.packets / 0x2000
    omega

/-- Somebody begins in the middle, falls back, wraps, sends late packets and tries to wrap again at
once. -/
def jumping : List Event :=
  [.media ⟨65500, 0, 1700000000000, 48000, 100⟩ 1000,
   .media ⟨65300, 0, 1700000000000, 48000, 100⟩ 1001,
   .media ⟨3, 0, 1700000000000, 48000, 100⟩ 1002, .report 8 7 1003,
   .media ⟨65535, 0, 1700000000000, 48000, 100⟩ 1004,
   .media ⟨2, 0, 1700000000000, 48000, 100⟩ 1005]

/-- So he gets the receiver to expect 65772 packets, though no more than five have come, but it
counts one wrap at most. -/
theorem sequence_never_runs_backwards_jumping :
    let r := ({} : Receiver).after jumping
    ({} : Receiver).turns jumping < 0x10000
      ∧ (({} : Receiver).after (jumping.take 1)).expected
        ≤ (({} : Receiver).after (jumping.take 2)).expected
      ∧ (1 ≤ r.expected ∧ ∃ base, r.base = some base
        ∧ r.expected + base.toNat = (r.cycles.toNat <<< 16) + r.maxSeq.toNat + 1)
      ∧ r.expected = 65772 ∧ r.cycles.toNat ≤ 1 + 5 / 0x2000 := by
  have few : ({} : Receiver).turns jumping < 0x10000 := by decide
  obtain ⟨grows, spans, -, paced⟩ := sequence_never_runs_backwards jumping few
  exact ⟨few, grows (jumping.take 1) ((jumping.drop 1).take 1) (jumping.drop 2) rfl,
    spans (by decide), rfl, paced⟩

end Receiver

end CastHub.Rtcp
