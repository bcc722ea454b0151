import CastHub.Proofs.RoundTrip
/-!
# Sequence numbers through their wraps

A receiver sees sixteen bits of each packet's number and has to find out the rest. Here is what it
finds out from a stream that arrives in order, with gaps: as long as no packet is more than eight
numbers ahead of the one before it, the cycles and the maximum make up the number of the latest
packet, through any number of wraps, and what counts as lost is what did not come.

Eight is the largest step for which this holds: between two wraps lie 65536 numbers, and in steps of
eight a stream takes more than `Receiver.wrapDistance` packets for them, wherever in the first steps
of the cycle it came down.

* `Range` : the part of a receiver that follows sequence numbers, and `Range.hear` : what a number
  does to it;
* `Receiver.range_step`, `Receiver.range_after` : of all that happens to a receiver, only the
  numbers of media packets matter to it;
* `Range.Follows` : the invariant, with `Range.follows_first` for the first packet,
  `Range.Follows.hear` for one more and `Range.Follows.foldl` for a stream;
* `Receiver.streams_in_order_are_counted` : what the receiver then says.
-/

namespace CastHub.Rtcp

/-- What a receiver knows of the sequence numbers that have come. -/
@[ext]
structure Range where
  /-- The beginning of the range. -/
  base : Option UInt16 := none
  maxSeq : UInt16 := 0
  cycles : UInt16 := 0
  /-- How many packets had come when the last wrap was counted. -/
  lastWrap : Nat := 0
  packets : Nat := 0
deriving DecidableEq

namespace Range

/-- Whether a number begins a new cycle. -/
def wraps (t : Range) (seq : UInt16) : Prop :=
  Receiver.wrapHigh < t.maxSeq ∧ seq < Receiver.wrapLow
    ∧ (t.lastWrap = 0 ∨ Receiver.wrapDistance < t.packets - t.lastWrap)

instance (t : Range) (seq : UInt16) : Decidable (t.wraps seq) :=
  inferInstanceAs (Decidable (_ ∧ _ ∧ _))

/-- The cycles after one more number. -/
def cyclesAfter (t : Range) (seq : UInt16) : UInt16 :=
  if t.wraps seq then t.cycles + 1 else t.cycles

/-- The beginning of the range after one more number. -/
def baseAfter (t : Range) (seq : UInt16) : UInt16 :=
  match t.base with
  | none => seq
  | some base => if t.cyclesAfter seq = 0 ∧ seq < base then seq else base

/-- The range after one more number. -/
def hear (t : Range) (seq : UInt16) : Range where
  base := some (t.baseAfter seq)
  maxSeq := if t.wraps seq ∨ t.maxSeq < seq then seq else t.maxSeq
  cycles := t.cyclesAfter seq
  lastWrap := if t.wraps seq then t.packets else t.lastWrap
  packets := t.packets + 1

/-- How many packets the range should hold. -/
def expected (t : Range) : Nat :=
  t.base.elim 0 fun base => t.cycles.toNat * 0x10000 + t.maxSeq.toNat + 1 - base.toNat

/-- How many of them are missing. -/
def lost (t : Range) : Nat := t.expected - t.packets

end Range

/-! ## The range of a receiver -/

namespace Receiver

/-- The part of a receiver that follows sequence numbers. -/
def range (r : Receiver) : Range where
  base := r.base
  maxSeq := r.maxSeq
  cycles := r.cycles
  lastWrap := r.lastWrap
  packets := r.counters.packets

variable {r : Receiver}

theorem expected_eq_range (r : Receiver) : r.expected = r.range.expected := by
  unfold expected Range.expected
  show _ = Option.elim r.base _ _
  cases r.base with
  | none => rfl
  | some base => rfl

theorem lost_eq_range (r : Receiver) : r.lost = r.range.lost := by
  unfold lost Range.lost
  rw [expected_eq_range]
  rfl

theorem wraps_iff_range (seq : UInt16) : r.wraps seq = true ↔ r.range.wraps seq := by
  simp [wraps, Range.wraps, range, and_assoc]

/-- A number moves the maximum and the cycles as the range says. -/
theorem range_trackMax (seq : UInt16) : (r.trackMax seq).range =
    { r.range with
      maxSeq := if r.range.wraps seq ∨ r.maxSeq < seq then seq else r.maxSeq
      cycles := r.range.cyclesAfter seq
      lastWrap := if r.range.wraps seq then r.counters.packets else r.lastWrap } := by
  unfold trackMax Range.cyclesAfter
  by_cases wrap : r.range.wraps seq
  · rw [if_pos (wraps_iff_range seq |>.2 wrap), if_pos (.inl wrap), if_pos wrap, if_pos wrap]
    rfl
  · rw [if_neg (mt (wraps_iff_range seq).1 wrap), if_neg wrap, if_neg wrap]
    by_cases ahead : r.maxSeq < seq
    · rw [if_pos ahead, if_pos (.inr ahead)]
      rfl
    · rw [if_neg ahead, if_neg (not_or.2 ⟨wrap, ahead⟩)]
      rfl

/-- A number moves the beginning of the range down, if it may. -/
theorem range_trackBase (seq : UInt16) : (r.trackBase seq).range =
    { r.range with
      base := some (match r.base with
        | none => seq
        | some base => if r.cycles = 0 ∧ seq < base then seq else base) } := by
  unfold trackBase
  cases found : r.base with
  | none => rfl
  | some base =>
    dsimp only
    split
    · rfl
    · rw [← found]
      rfl

theorem range_track (seq : UInt16) : ((r.trackMax seq).trackBase seq).range =
    { r.range.hear seq with packets := r.counters.packets } := by
  have max := range_trackMax (r := r) seq
  have cycles : (r.trackMax seq).cycles = r.range.cyclesAfter seq := congrArg Range.cycles max
  have base : (r.trackMax seq).base = r.base := congrArg Range.base max
  rw [range_trackBase, max, cycles, base]
  rfl

/-- A packet does to the range what its number does. -/
theorem range_onMedia (p : MediaPacket) (now : UInt64) :
    (r.onMedia p now).range = r.range.hear p.seq :=
  congrArg (fun t : Range => { t with packets := t.packets + 1 })
    (range_track (r := { r with jitter := r.jitterAfter p now, lastArrival := some now }) p.seq)

/-- The number of a media packet. -/
def Event.seq? : Event → Option UInt16
  | .media p _ => some p.seq
  | .packet .. | .report .. | .expectedInterval | .lostInterval => none

/-- Of all that happens to a receiver, only the numbers of media packets matter to its range. -/
theorem range_step (e : Event) : (r.step e).range = e.seq?.elim r.range r.range.hear := by
  cases e with
  | media p now => exact range_onMedia p now
  | packet p now => cases p <;> rfl
  | report ssrc stream now => rfl
  | expectedInterval => rfl
  | lostInterval => rfl

theorem range_after (events : List Event) :
    (r.after events).range = (events.filterMap Event.seq?).foldl Range.hear r.range := by
  induction events generalizing r with
  | nil => rfl
  | cons e rest ih =>
    have here := range_step (r := r) e
    show ((r.step e).after rest).range = _
    rw [ih, here]
    cases found : e.seq? with
    | none => rw [List.filterMap_cons_none found]; rfl
    | some seq => rw [List.filterMap_cons_some found]; rfl

end Receiver

/-! ## Streams in order -/

namespace Range

variable {t : Range} {first last next : Nat}

/-- A range after a stream that began with the number `first`, came in order with gaps of less than
eight, and is at `last`; both are meant with their cycles. -/
structure Follows (t : Range) (first last : Nat) : Prop where
  first_le : first ≤ last
  heard : 0 < t.packets
  base : t.base = some (UInt16.ofNat first)
  cycles : t.cycles.toNat = last / 0x10000
  maxSeq : t.maxSeq.toNat = last % 0x10000
  /-- Since the latest wrap there came a packet for every eight numbers. -/
  lastWrap : if last < 0x10000 then t.lastWrap = 0
    else 0 < t.lastWrap ∧ last % 0x10000 + 8 * t.lastWrap < 8 * t.packets

/-- The first packet begins the range. -/
theorem follows_first (small : first < 0x10000) :
    (({} : Range).hear (UInt16.ofNat first)).Follows first first := by
  have seq : (UInt16.ofNat first).toNat = first :=
    UInt16.toNat_ofNat'.trans (Nat.mod_eq_of_lt small)
  have calm : ¬ ({} : Range).wraps (UInt16.ofNat first) := fun wrap => absurd wrap.1 (by decide)
  refine ⟨le_rfl, Nat.one_pos, rfl, ?_, ?_, ?_⟩
  · rw [hear, cyclesAfter, if_neg calm, Nat.div_eq_of_lt small]
    rfl
  · rw [Nat.mod_eq_of_lt small]
    by_cases ahead : 0 < UInt16.ofNat first
    · rw [hear, if_pos (.inr ahead), seq]
    · rw [hear, if_neg (not_or.2 ⟨calm, ahead⟩)]
      rw [UInt16.lt_iff_toNat_lt, seq] at ahead
      show 0 = first
      exact (Nat.eq_zero_of_not_pos ahead).symm
  · rw [if_pos small, hear, if_neg calm]

/-- A wrap is counted exactly when the stream enters a new cycle. -/
theorem Follows.wraps_iff (h : t.Follows first last) (ahead : last ≤ next)
    (near : next ≤ last + 8) :
    t.wraps (UInt16.ofNat next) ↔ last / 0x10000 < next / 0x10000 := by
  have seq : (UInt16.ofNat next).toNat = next % 0x10000 := UInt16.toNat_ofNat'
  have high : Receiver.wrapHigh.toNat = 0xFF00 := rfl
  have low : Receiver.wrapLow.toNat = 0xFF := rfl
  have distance : Receiver.wrapDistance = 0x1FFF := rfl
  have since := h.lastWrap
  unfold wraps
  rw [UInt16.lt_iff_toNat_lt, UInt16.lt_iff_toNat_lt, seq, high, low, distance, h.maxSeq]
  split at since <;> omega

/-- One more packet, at most eight numbers ahead, is followed. -/
theorem Follows.hear (h : t.Follows first last) (ahead : last ≤ next) (near : next ≤ last + 8)
    (bounded : next < 2 ^ 32) : (t.hear (UInt16.ofNat next)).Follows first next := by
  have seq : (UInt16.ofNat next).toNat = next % 0x10000 := UInt16.toNat_ofNat'
  have wraps_iff := h.wraps_iff ahead near
  have cycles : (t.cyclesAfter (UInt16.ofNat next)).toNat = next / 0x10000 := by
    unfold cyclesAfter
    split
    · rename_i wrap
      have enters := wraps_iff.1 wrap
      rw [UInt16.toNat_add, h.cycles]
      show (_ + 1) % 2 ^ 16 = _
      omega
    · rename_i calm
      have stays := mt wraps_iff.2 calm
      rw [h.cycles]
      omega
  refine ⟨h.first_le.trans ahead, Nat.succ_pos _, ?_, cycles, ?_, ?_⟩
  · -- the beginning moves only in the first cycle, and there every number is above it
    show some (t.baseAfter _) = _
    unfold baseAfter
    rw [h.base]
    dsimp only
    rw [if_neg]
    rintro ⟨zero, below⟩
    rw [zero] at cycles
    rw [UInt16.lt_iff_toNat_lt, seq, UInt16.toNat_ofNat'] at below
    have first_le := h.first_le
    have : (0 : UInt16).toNat = 0 := rfl
    omega
  · show (if _ then _ else _ : UInt16).toNat = _
    split
    · exact seq
    · rename_i behind
      have stays := mt wraps_iff.2 fun wrap => behind (.inl wrap)
      have low : ¬ t.maxSeq < UInt16.ofNat next := fun above => behind (.inr above)
      rw [UInt16.lt_iff_toNat_lt, seq, h.maxSeq] at low
      rw [h.maxSeq]
      omega
  · show if _ then (t.hear _).lastWrap = 0 else 0 < (t.hear _).lastWrap ∧ _ < 8 * (t.packets + 1)
    have since := h.lastWrap
    have heard := h.heard
    unfold Range.hear
    dsimp only
    by_cases wrap : t.wraps (UInt16.ofNat next)
    · have enters := wraps_iff.1 wrap
      rw [if_neg (by omega), if_pos wrap]
      omega
    · have stays := mt wraps_iff.2 wrap
      rw [if_neg wrap]
      split at since
      · rw [if_pos (by omega)]
        exact since
      · rw [if_neg (by omega)]
        omega

/-- A stream is followed to its end. -/
theorem Follows.foldl {rest : List Nat} (h : t.Follows first last)
    (order : List.IsChain (fun a b => a ≤ b ∧ b ≤ a + 8) (last :: rest))
    (bounded : ∀ e ∈ rest, e < 2 ^ 32) :
    ((rest.map UInt16.ofNat).foldl Range.hear t).Follows first ((last :: rest).getLast (by simp))
      ∧ ((rest.map UInt16.ofNat).foldl Range.hear t).packets = t.packets + rest.length := by
  induction rest generalizing t last with
  | nil => exact ⟨h, rfl⟩
  | cons next rest ih =>
    obtain ⟨⟨ahead, near⟩, order⟩ := List.isChain_cons_cons.1 order
    have one := h.hear ahead near (bounded next (List.mem_cons_self ..))
    obtain ⟨follows, packets⟩ := ih one order fun e mem => bounded e (List.mem_cons_of_mem _ mem)
    refine ⟨by rwa [List.getLast_cons (by simp)], packets.trans ?_⟩
    show t.packets + 1 + rest.length = t.packets + (rest.length + 1)
    omega

/-- What a range that follows a stream says of it. -/
theorem Follows.expected_eq (h : t.Follows first last) (small : first < 0x10000) :
    t.expected = last - first + 1 := by
  have first_le := h.first_le
  unfold expected
  rw [h.base]
  show t.cycles.toNat * 0x10000 + t.maxSeq.toNat + 1 - (UInt16.ofNat first).toNat = _
  rw [h.cycles, h.maxSeq, UInt16.toNat_ofNat', Nat.mod_eq_of_lt small]
  omega

end Range

namespace Receiver

/-- **Streams in order are counted exactly.** Let the numbers of a stream, meant with their cycles,
begin below `65536`, stay below `2 ^ 32` and never go back nor ahead by more than eight, and let a
receiver hear the lower sixteen bits of each in this order; stamps, rates, sizes, clocks and all
else that happens to it are arbitrary. Then its cycles and its maximum make up the last number, its
range begins with the first one, it expects all numbers between the two, and it takes for lost as
many of them as have not come. -/
theorem streams_in_order_are_counted (events : List Event) (first : Nat) (rest : List Nat)
    (small : first < 0x10000) (order : List.IsChain (fun a b => a ≤ b ∧ b ≤ a + 8) (first :: rest))
    (bounded : ∀ e ∈ rest, e < 2 ^ 32)
    (heard : events.filterMap Event.seq? = (first :: rest).map UInt16.ofNat) :
    let r := ({} : Receiver).after events
    let last := (first :: rest).getLast (by simp)
    (r.cycles.toNat <<< 16) + r.maxSeq.toNat = last
      ∧ r.base = some (UInt16.ofNat first)
      ∧ r.expected = last - first + 1
      ∧ r.lost = last - first + 1 - (first :: rest).length := by
  intro r last
  have range : r.range = (rest.map UInt16.ofNat).foldl Range.hear
      (({} : Range).hear (UInt16.ofNat first)) := by
    rw [range_after, heard]
    rfl
  obtain ⟨follows, packets⟩ := (Range.follows_first small).foldl order bounded
  rw [← range] at follows packets
  have expected : r.expected = last - first + 1 := by
    rw [expected_eq_range]
    exact follows.expected_eq small
  refine ⟨?_, follows.base, expected, ?_⟩
  · have cycles : r.cycles.toNat = last / 0x10000 := follows.cycles
    have maxSeq : r.maxSeq.toNat = last % 0x10000 := follows.maxSeq
    rw [cycles, maxSeq, Nat.shiftLeft_eq]
    omega
  · have counted : r.counters.packets = 1 + rest.length := packets
    rw [lost, expected, counted, List.length_cons, Nat.add_comm 1]

/-- A stream that loses two packets before its first wrap and seven at it, and repeats the packet
after that; meanwhile a report is made. -/
def crossing : List Event :=
  [.media ⟨65530, 960, 1700000000000, 48000, 100⟩ 1000,
   .media ⟨65533, 3840, 1700000000060, 48000, 100⟩ 1060, .report 8 7 1070,
   .media ⟨5, 11520, 1700000000220, 48000, 100⟩ 1220,
   .media ⟨5, 11520, 1700000000220, 48000, 100⟩ 1221]

/-- So it is counted with that stream, whose numbers go from `65530` to `65541`. -/
theorem streams_in_order_are_counted_crossing :
    let r := ({} : Receiver).after crossing
    (r.cycles.toNat <<< 16) + r.maxSeq.toNat = 65541 ∧ r.base = some 65530
      ∧ r.expected = 12 ∧ r.lost = 8 :=
  streams_in_order_are_counted crossing 65530 [65533, 65541, 65541] (by decide) (by decide)
    (by decide) rfl

end Receiver

end CastHub.Rtcp
