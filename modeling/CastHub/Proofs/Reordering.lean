import CastHub.Proofs.Sequence
import Mathlib.Data.List.Chain
/-!
# Packets that change places

Two packets next to each other in a stream without gaps change places on the way. Mostly a receiver
does not notice. Only when the two are the last packet of a cycle and the first of the next is there
a difference: the late packet is taken for the end of the new cycle, and a whole cycle seems to be
missing, until the stream has gone through the new cycle itself. If the two are the very first
packets, the range moreover begins a cycle too early, and that stays so until the cycles themselves
have wrapped.

* `Range.hear_comm` : when two numbers may come in either order;
* `Range.InStep` : a range that takes the next number for what it is, with `Range.InStep.next`;
* `Range.Alike` : ranges that differ at most in when the latest wrap was counted, and stay so;
* `Range.Ahead` : one range is at the end of the cycle that the other one goes through, with
  `Range.Ahead.foldl` : until that one gets there, too;
* `Range.Early` : one range begins with the first number of a cycle and the other with the last
  number of the cycle before, with `Range.Early.foldl`;
* `Receiver.exchange_is_unnoticed_iff` : which exchanges a receiver does not notice.
-/

namespace CastHub.Rtcp

namespace Range

variable {t u v : Range} {a b seq : UInt16}

/-! ## Either order -/

/-- The beginning of the range after two numbers in the same cycle does not depend on their order.
-/
theorem baseAfter_comm (below : a < b) (cycles : t.cyclesAfter a = t.cyclesAfter b)
    (later : (t.hear a).cyclesAfter b = t.cyclesAfter b)
    (later' : (t.hear b).cyclesAfter a = t.cyclesAfter b)
    (start : t.base = none → t.cyclesAfter b = 0) :
    (t.hear a).baseAfter b = (t.hear b).baseAfter a := by
  show (if _ ∧ b < t.baseAfter a then b else t.baseAfter a)
    = if _ ∧ a < t.baseAfter b then a else t.baseAfter b
  rw [later, later']
  unfold baseAfter
  rw [cycles]
  cases found : t.base with
  | none => simp [start found, below, UInt16.lt_asymm below]
  | some base =>
    dsimp only
    by_cases zero : t.cyclesAfter b = 0
    · simp only [zero, true_and]
      rw [UInt16.lt_iff_toNat_lt] at below
      simp only [UInt16.lt_iff_toNat_lt]
      split_ifs <;> first | rfl | omega
    · simp only [zero, false_and, if_false]


/-- Two numbers of which the greater is a new maximum either way may come in either order, unless
the second one begins a new cycle. -/
theorem hear_comm (below : a < b) (both : t.wraps a ↔ t.wraps b)
    (ahead : t.wraps b ∨ t.maxSeq < b) (calm : ¬ (t.hear a).wraps b) (calm' : ¬ (t.hear b).wraps a)
    (start : t.base = none → t.cyclesAfter b = 0) : (t.hear a).hear b = (t.hear b).hear a := by
  have cycles : t.cyclesAfter a = t.cyclesAfter b := by
    unfold cyclesAfter
    simp only [both]
  have later : (t.hear a).cyclesAfter b = t.cyclesAfter b := (if_neg calm).trans cycles
  have later' : (t.hear b).cyclesAfter a = t.cyclesAfter b := if_neg calm'
  have apart : ¬ b < a := UInt16.lt_asymm below
  ext1
  · exact congrArg some (baseAfter_comm below cycles later later' start)
  · show (if _ ∨ (t.hear a).maxSeq < b then b else (t.hear a).maxSeq)
      = if _ ∨ (t.hear b).maxSeq < a then a else (t.hear b).maxSeq
    have most : (t.hear b).maxSeq = b := if_pos ahead
    have less : (t.hear a).maxSeq < b := by
      show (if _ then a else t.maxSeq) < b
      split
      · exact below
      · rename_i behind
        exact ahead.resolve_left fun wrap => behind (.inl (both.2 wrap))
    rw [most, if_pos (.inr less), if_neg (not_or.2 ⟨calm', apart⟩)]
  · exact later.trans later'.symm
  · show (if _ then _ else if _ then _ else _) = if _ then _ else if _ then _ else _
    rw [if_neg calm, if_neg calm']
    simp only [both]
  · rfl

/-! ## In step -/

/-- A range that takes the next number for what it is: if that is the first one of a cycle, then the
latest wrap is long past. -/
def InStep (t : Range) : Prop := t.lastWrap = 0 ∨ t.maxSeq.toNat + t.lastWrap ≤ t.packets

theorem toNat_next (a : UInt16) : (a + 1).toNat = (a.toNat + 1) % 0x10000 := UInt16.toNat_add a 1

theorem toNat_ne_top {a : UInt16} (low : a ≠ 0xFFFF) : a.toNat ≠ 0xFFFF :=
  fun top => low (UInt16.toNat_inj.1 top)

/-- The next number begins a new cycle exactly after the last one of a cycle. -/
theorem InStep.wraps_next (h : t.InStep) : t.wraps (t.maxSeq + 1) ↔ t.maxSeq = 0xFFFF := by
  have high : Receiver.wrapHigh.toNat = 0xFF00 := rfl
  have low : Receiver.wrapLow.toNat = 0xFF := rfl
  have distance : Receiver.wrapDistance = 0x1FFF := rfl
  have top : t.maxSeq = 0xFFFF ↔ t.maxSeq.toNat = 0xFFFF := UInt16.toNat_inj.symm
  unfold wraps
  rw [UInt16.lt_iff_toNat_lt, UInt16.lt_iff_toNat_lt, toNat_next, high, low, distance, top]
  have bound := t.maxSeq.toNat_lt
  unfold InStep at h
  omega

theorem InStep.maxSeq_next (h : t.InStep) : (t.hear (t.maxSeq + 1)).maxSeq = t.maxSeq + 1 := by
  refine if_pos ?_
  have bound := t.maxSeq.toNat_lt
  rw [h.wraps_next, UInt16.lt_iff_toNat_lt, toNat_next, ← UInt16.toNat_inj]
  show _ = 0xFFFF ∨ _
  omega

/-- After the next number a range is still in step. -/
theorem InStep.next (h : t.InStep) : (t.hear (t.maxSeq + 1)).InStep := by
  show (if _ then _ else _) = 0 ∨ (t.hear _).maxSeq.toNat + (if _ then _ else _) ≤ t.packets + 1
  rw [h.maxSeq_next, toNat_next]
  by_cases wrap : t.wraps (t.maxSeq + 1)
  · have top : t.maxSeq.toNat = 0xFFFF := congrArg UInt16.toNat (h.wraps_next.1 wrap)
    rw [if_pos wrap, top]
    omega
  · rw [if_neg wrap]
    have bound := t.maxSeq.toNat_lt
    unfold InStep at h
    omega

/-- The number of the latest packet, with its cycles. -/
def position (t : Range) : Nat := t.cycles.toNat * 0x10000 + t.maxSeq.toNat

theorem expected_eq_position {base : UInt16} (h : t.base = some base) :
    t.expected = t.position + 1 - base.toNat := by
  unfold expected
  rw [h]
  rfl

/-- The next number is one further, until the cycles wrap. -/
theorem InStep.position_next (h : t.InStep) :
    (t.hear (t.maxSeq + 1)).position = (t.position + 1) % 2 ^ 32 := by
  have maxSeq : (t.hear (t.maxSeq + 1)).maxSeq.toNat = (t.maxSeq.toNat + 1) % 0x10000 := by
    rw [h.maxSeq_next, toNat_next]
  have bound := t.maxSeq.toNat_lt
  have most := t.cycles.toNat_lt
  unfold position
  rw [maxSeq]
  show (if _ then _ else _ : UInt16).toNat * _ + _ = _
  by_cases wrap : t.wraps (t.maxSeq + 1)
  · have top : t.maxSeq.toNat = 0xFFFF := congrArg UInt16.toNat (h.wraps_next.1 wrap)
    rw [if_pos wrap, toNat_next]
    omega
  · have low := toNat_ne_top (mt h.wraps_next.2 wrap)
    rw [if_neg wrap]
    omega

/-- What is numbered without a gap, up to the wraps. -/
def Consecutive (numbers : List UInt16) : Prop := numbers.IsChain fun a b => b = a + 1

instance (numbers : List UInt16) : Decidable (Consecutive numbers) :=
  inferInstanceAs (Decidable (numbers.IsChain fun a b => b = a + 1))

/-- A stream without gaps keeps a range in step. -/
theorem InStep.foldl {numbers : List UInt16} (h : t.InStep)
    (order : Consecutive (t.maxSeq :: numbers)) :
    (numbers.foldl hear t).InStep
      ∧ (numbers.foldl hear t).maxSeq = (t.maxSeq :: numbers).getLast (by simp) := by
  induction numbers generalizing t with
  | nil => exact ⟨h, rfl⟩
  | cons next rest ih =>
    obtain ⟨rfl, order⟩ := List.isChain_cons_cons.1 order
    rw [← h.maxSeq_next] at order
    obtain ⟨still, last⟩ := ih h.next order
    refine ⟨still, last.trans ?_⟩
    rw [List.getLast_cons_cons]
    simp only [h.maxSeq_next]

/-! ## Ranges that say the same -/

/-- Whether two ranges lead to the same report. -/
def SaysSame (u v : Range) : Prop :=
  v.cycles = u.cycles ∧ v.expected = u.expected ∧ v.lost = u.lost

/-- Two ranges that differ at most in when the latest wrap was counted. -/
structure Alike (u v : Range) : Prop where
  base : v.base = u.base
  maxSeq : v.maxSeq = u.maxSeq
  cycles : v.cycles = u.cycles
  packets : v.packets = u.packets

theorem Alike.refl (u : Range) : Alike u u := ⟨rfl, rfl, rfl, rfl⟩

theorem Alike.saysSame (h : Alike u v) : SaysSame u v := by
  have expected : v.expected = u.expected := by
    unfold expected
    rw [h.base, h.cycles, h.maxSeq]
  refine ⟨h.cycles, expected, ?_⟩
  unfold lost
  rw [expected, h.packets]

/-- Both take a number that is a wrap for both or for none the same way. -/
theorem Alike.hear (h : Alike u v) (both : v.wraps seq ↔ u.wraps seq) :
    Alike (u.hear seq) (v.hear seq) := by
  have cycles : v.cyclesAfter seq = u.cyclesAfter seq := by
    unfold cyclesAfter
    simp only [both, h.cycles]
  refine ⟨congrArg some ?_, ?_, cycles, congrArg (· + 1) h.packets⟩
  · unfold baseAfter
    rw [h.base, cycles]
  · unfold Range.hear
    simp only [both, h.maxSeq]

/-- Ranges that are alike and in step stay so while a stream goes on without gaps. -/
theorem Alike.foldl {numbers : List UInt16} (h : Alike u v) (hu : u.InStep) (hv : v.InStep)
    (order : Consecutive (u.maxSeq :: numbers)) :
    Alike (numbers.foldl Range.hear u) (numbers.foldl Range.hear v) := by
  induction numbers generalizing u v with
  | nil => exact h
  | cons next rest ih =>
    obtain ⟨rfl, order⟩ := List.isChain_cons_cons.1 order
    have inStep := hv.next
    have both := hv.wraps_next
    rw [h.maxSeq] at inStep both
    rw [← hu.maxSeq_next] at order
    exact ih (h.hear (both.trans hu.wraps_next.symm)) hu.next inStep order

/-! ## At the end of the cycle too soon -/

/-- Both ranges are in the same cycle, but the second one is at its end already. -/
structure Ahead (u v : Range) : Prop where
  base : ∃ base, u.base = some base ∧ v.base = some base
  cycles : v.cycles = u.cycles
  packets : v.packets = u.packets
  top : v.maxSeq = 0xFFFF
  wrapped : 0 < v.lastWrap
  /-- Since the wrap came all numbers up to the maximum of the first range, and one more. -/
  since : v.packets = v.lastWrap + u.maxSeq.toNat + 2

/-- As long as the first range has not come to the end of the cycle, the second one expects more. -/
theorem Ahead.not_saysSame (h : Ahead u v) (low : u.maxSeq ≠ 0xFFFF) : ¬ SaysSame u v := by
  rintro ⟨-, same, -⟩
  obtain ⟨base, here, there⟩ := h.base
  rw [expected_eq_position here, expected_eq_position there] at same
  have below := toNat_ne_top low
  have max := u.maxSeq.toNat_lt
  have bound := base.toNat_lt
  have further : v.position = u.cycles.toNat * 0x10000 + 0xFFFF := by
    rw [position, h.cycles, h.top]
    rfl
  rw [further] at same
  unfold position at same
  omega

/-- While the first range goes through the cycle, the second one does not notice. -/
theorem Ahead.next (h : Ahead u v) (hu : u.InStep) (low : u.maxSeq ≠ 0xFFFF) :
    Ahead (u.hear (u.maxSeq + 1)) (v.hear (u.maxSeq + 1)) := by
  have below := toNat_ne_top low
  have bound := u.maxSeq.toNat_lt
  have next := toNat_next u.maxSeq
  have calm : ¬ u.wraps (u.maxSeq + 1) := fun wrap => low (hu.wraps_next.1 wrap)
  have calm' : ¬ v.wraps (u.maxSeq + 1) := by
    rintro ⟨-, near, soon⟩
    have distance : Receiver.wrapDistance = 0x1FFF := rfl
    have wrapLow : Receiver.wrapLow.toNat = 0xFF := rfl
    rw [UInt16.lt_iff_toNat_lt, wrapLow] at near
    have wrapped := h.wrapped
    have since := h.since
    omega
  have cycles : u.cyclesAfter (u.maxSeq + 1) = u.cycles := if_neg calm
  have cycles' : v.cyclesAfter (u.maxSeq + 1) = u.cycles := (if_neg calm').trans h.cycles
  obtain ⟨base, here, there⟩ := h.base
  refine ⟨⟨_, rfl, congrArg some ?_⟩, cycles'.trans cycles.symm, congrArg (· + 1) h.packets, ?_, ?_,
    ?_⟩
  · unfold baseAfter
    rw [here, there, cycles, cycles']
  · have above : ¬ (0xFFFF : UInt16) < u.maxSeq + 1 := by
      rw [UInt16.lt_iff_toNat_lt, next]
      show ¬ 0xFFFF < _
      omega
    show (if _ ∨ v.maxSeq < _ then _ else v.maxSeq) = _
    rw [h.top, if_neg (not_or.2 ⟨calm', above⟩)]
  · show 0 < if _ then _ else _
    rw [if_neg calm']
    exact h.wrapped
  · show v.packets + 1 = (if _ then _ else _) + (u.hear _).maxSeq.toNat + 2
    rw [if_neg calm', hu.maxSeq_next, next, h.since]
    omega

/-- At the end of the cycle the two ranges are alike. -/
theorem Ahead.alike (h : Ahead u v) (top : u.maxSeq = 0xFFFF) : Alike u v ∧ v.InStep := by
  obtain ⟨base, here, there⟩ := h.base
  refine ⟨⟨there.trans here.symm, h.top.trans top.symm, h.cycles, h.packets⟩, .inr ?_⟩
  have since := h.since
  rw [h.top]
  rw [top] at since
  omega

/-- The second range stays ahead until the first one has come to the end of the cycle. -/
theorem Ahead.foldl {numbers : List UInt16} (h : Ahead u v) (hu : u.InStep)
    (order : Consecutive (u.maxSeq :: numbers)) :
    SaysSame (numbers.foldl Range.hear u) (numbers.foldl Range.hear v)
      ↔ 0xFFFF ≤ u.maxSeq.toNat + numbers.length := by
  induction numbers generalizing u v with
  | nil =>
    have bound := u.maxSeq.toNat_lt
    by_cases top : u.maxSeq = 0xFFFF
    · refine iff_of_true (h.alike top).1.saysSame ?_
      rw [top]
      decide
    · have below := toNat_ne_top top
      refine iff_of_false (h.not_saysSame top) ?_
      show ¬ _ ≤ u.maxSeq.toNat + 0
      omega
  | cons next rest ih =>
    by_cases top : u.maxSeq = 0xFFFF
    · obtain ⟨alike, hv⟩ := h.alike top
      refine iff_of_true (alike.foldl hu hv order).saysSame ?_
      rw [top]
      exact Nat.le_add_right ..
    · have below := toNat_ne_top top
      have bound := u.maxSeq.toNat_lt
      obtain ⟨rfl, order⟩ := List.isChain_cons_cons.1 order
      rw [← hu.maxSeq_next] at order
      have on := ih (h.next hu top) hu.next order
      rw [hu.maxSeq_next, toNat_next] at on
      refine on.trans ?_
      rw [List.length_cons]
      omega

/-! ## A cycle too early -/

/-- Both ranges are at the same number after the first cycle, but the first one begins with the last
number of that cycle, and the second one with its number zero, which had not been sent in it. -/
structure Early (u v : Range) : Prop where
  base : u.base = some 0xFFFF
  base' : v.base = some 0
  maxSeq : v.maxSeq = u.maxSeq
  cycles : v.cycles = u.cycles
  packets : v.packets = u.packets
  wrapped : u.cycles ≠ 0

/-- A range that begins too early expects more. -/
theorem Early.not_saysSame (h : Early u v) : ¬ SaysSame u v := by
  rintro ⟨-, same, -⟩
  rw [expected_eq_position h.base, expected_eq_position h.base'] at same
  have equal : v.position = u.position := by
    unfold position
    rw [h.cycles, h.maxSeq]
  have top : (0xFFFF : UInt16).toNat = 0xFFFF := rfl
  have zero : (0 : UInt16).toNat = 0 := rfl
  rw [equal, top, zero] at same
  have wrapped : u.cycles.toNat ≠ 0 := fun e => h.wrapped (UInt16.toNat_inj.1 e)
  unfold position at same
  omega

/-- The next number leaves the beginnings where they are, unless the cycles wrap: then both ranges
begin anew. -/
theorem Early.next (h : Early u v) (hu : u.InStep) (hv : v.InStep) :
    if u.position + 1 < 2 ^ 32 then Early (u.hear (u.maxSeq + 1)) (v.hear (u.maxSeq + 1))
    else Alike (u.hear (u.maxSeq + 1)) (v.hear (u.maxSeq + 1)) := by
  have both := hv.wraps_next
  rw [h.maxSeq] at both
  have both := both.trans hu.wraps_next.symm
  have cycles : v.cyclesAfter (u.maxSeq + 1) = u.cyclesAfter (u.maxSeq + 1) := by
    unfold cyclesAfter
    simp only [both, h.cycles]
  have maxSeq : (v.hear (u.maxSeq + 1)).maxSeq = (u.hear (u.maxSeq + 1)).maxSeq := by
    unfold Range.hear
    simp only [both, h.maxSeq]
  have packets : v.packets + 1 = u.packets + 1 := congrArg (· + 1) h.packets
  have base' : (v.hear (u.maxSeq + 1)).base = some 0 := by
    show some (v.baseAfter _) = _
    unfold baseAfter
    rw [h.base']
    exact congrArg some (if_neg fun lower => absurd lower.2 (UInt16.not_lt_zero))
  have base : (u.hear (u.maxSeq + 1)).base
      = some (if u.cyclesAfter (u.maxSeq + 1) = 0 ∧ u.maxSeq + 1 < 0xFFFF then u.maxSeq + 1
        else 0xFFFF) := by
    show some (u.baseAfter _) = _
    unfold baseAfter
    rw [h.base]
  have place : (u.cyclesAfter (u.maxSeq + 1)).toNat * 0x10000
      + (u.hear (u.maxSeq + 1)).maxSeq.toNat = (u.position + 1) % 2 ^ 32 := hu.position_next
  rw [hu.maxSeq_next] at place
  have bound := (u.maxSeq + 1).toNat_lt
  have lowest : 0x10000 ≤ u.position := by
    have wrapped : u.cycles.toNat ≠ 0 := fun e => h.wrapped (UInt16.toNat_inj.1 e)
    unfold position
    omega
  split
  · rename_i far
    have still : u.cyclesAfter (u.maxSeq + 1) ≠ 0 := by
      intro zero
      have none : (u.cyclesAfter (u.maxSeq + 1)).toNat = 0 := congrArg UInt16.toNat zero
      omega
    exact ⟨base.trans (congrArg some (if_neg fun lower => still lower.1)), base', maxSeq, cycles,
      packets, still⟩
  · rename_i near
    have max := u.maxSeq.toNat_lt
    have most := u.cycles.toNat_lt
    have here : u.position = u.cycles.toNat * 0x10000 + u.maxSeq.toNat := rfl
    have last : u.position + 1 = 2 ^ 32 := by omega
    rw [last] at place
    have zero : (u.cyclesAfter (u.maxSeq + 1)).toNat = 0 := by omega
    have first : (u.maxSeq + 1).toNat = 0 := by omega
    refine ⟨base'.trans ?_, maxSeq, cycles, packets⟩
    rw [base, show u.cyclesAfter (u.maxSeq + 1) = 0 from UInt16.toNat_inj.1 zero,
      show u.maxSeq + 1 = 0 from UInt16.toNat_inj.1 first]
    rfl

/-- The beginnings stay different until the cycles have wrapped. -/
theorem Early.foldl {numbers : List UInt16} (h : Early u v) (hu : u.InStep) (hv : v.InStep)
    (order : Consecutive (u.maxSeq :: numbers)) :
    SaysSame (numbers.foldl Range.hear u) (numbers.foldl Range.hear v)
      ↔ 2 ^ 32 ≤ u.position + numbers.length := by
  induction numbers generalizing u v with
  | nil =>
    refine iff_of_false h.not_saysSame ?_
    have bound := u.maxSeq.toNat_lt
    have most := u.cycles.toNat_lt
    show ¬ _ ≤ _ + 0
    unfold position
    omega
  | cons next rest ih =>
    obtain ⟨rfl, order⟩ := List.isChain_cons_cons.1 order
    rw [← hu.maxSeq_next] at order
    have inStep := hv.next
    rw [h.maxSeq] at inStep
    have on := h.next hu hv
    rw [List.length_cons]
    split at on
    · rename_i far
      refine (ih on hu.next inStep order).trans ?_
      rw [hu.position_next, Nat.mod_eq_of_lt far]
      omega
    · rename_i near
      refine iff_of_true (on.foldl hu.next inStep order).saysSame ?_
      omega

/-! ## One exchange -/

/-- The first number of a stream is followed by the next one. -/
theorem inStep_first (a : UInt16) :
    (({} : Range).hear a).InStep ∧ (({} : Range).hear a).maxSeq = a := by
  have calm : ¬ ({} : Range).wraps a := fun wrap => absurd wrap.1 (by decide)
  have never : (({} : Range).hear a).lastWrap = 0 := by
    rw [hear, if_neg calm]
  refine ⟨.inl never, ?_⟩
  by_cases ahead : 0 < a
  · exact if_pos (.inr ahead)
  · have zero : a = 0 := by
      rw [UInt16.lt_iff_toNat_lt] at ahead
      exact UInt16.toNat_inj.1 (Nat.eq_zero_of_not_pos ahead)
    rw [zero]
    rfl

/-- A range in the middle of a stream without gaps is in step. -/
theorem inStep_after {before : List UInt16} {a : UInt16} (some : before ≠ [])
    (order : Consecutive (before ++ [a])) :
    (before.foldl hear {}).InStep ∧ a = (before.foldl hear {}).maxSeq + 1 := by
  cases before with
  | nil => exact absurd rfl some
  | cons first rest =>
    obtain ⟨start, max⟩ := inStep_first first
    obtain ⟨front, -, link⟩ := List.isChain_append.1 order
    rw [← max] at front
    obtain ⟨inStep, last⟩ := start.foldl front
    refine ⟨inStep, ?_⟩
    show _ = (rest.foldl hear _).maxSeq + 1
    rw [last]
    simp only [max]
    exact link _ (List.getLast_mem_getLast? _) a rfl

/-- Two numbers next to each other in the same cycle may come in either order. -/
theorem exchange_eq (low : a ≠ 0xFFFF) (both : t.wraps a ↔ t.wraps (a + 1))
    (ahead : t.wraps (a + 1) ∨ t.maxSeq < a + 1) (max : (t.hear a).maxSeq = a)
    (start : t.base = none → t.cyclesAfter (a + 1) = 0) :
    (t.hear a).hear (a + 1) = (t.hear (a + 1)).hear a := by
  have below := toNat_ne_top low
  have bound := a.toNat_lt
  have next := toNat_next a
  have high : Receiver.wrapHigh.toNat = 0xFF00 := rfl
  have wrapLow : Receiver.wrapLow.toNat = 0xFF := rfl
  have max' : (t.hear (a + 1)).maxSeq = a + 1 := if_pos ahead
  refine hear_comm ?_ both ahead ?_ ?_ start
  · rw [UInt16.lt_iff_toNat_lt]
    omega
  · rintro ⟨above, under, -⟩
    rw [max, UInt16.lt_iff_toNat_lt] at above
    rw [UInt16.lt_iff_toNat_lt] at under
    omega
  · rintro ⟨above, under, -⟩
    rw [max', UInt16.lt_iff_toNat_lt] at above
    rw [UInt16.lt_iff_toNat_lt] at under
    omega

/-- In the middle of a stream two numbers of the same cycle may come in either order. -/
theorem InStep.exchange_eq (h : t.InStep) (started : t.base ≠ none) (low : t.maxSeq + 1 ≠ 0xFFFF) :
    (t.hear (t.maxSeq + 1)).hear (t.maxSeq + 1 + 1)
      = (t.hear (t.maxSeq + 1 + 1)).hear (t.maxSeq + 1) := by
  have bound := t.maxSeq.toNat_lt
  have next := toNat_next t.maxSeq
  have second := toNat_next (t.maxSeq + 1)
  have below := toNat_ne_top low
  have wraps : t.wraps (t.maxSeq + 1 + 1) ↔ t.maxSeq = 0xFFFF := by
    have high : Receiver.wrapHigh.toNat = 0xFF00 := rfl
    have wrapLow : Receiver.wrapLow.toNat = 0xFF := rfl
    have distance : Receiver.wrapDistance = 0x1FFF := rfl
    have top : t.maxSeq = 0xFFFF ↔ t.maxSeq.toNat = 0xFFFF := UInt16.toNat_inj.symm
    unfold Range.wraps
    rw [UInt16.lt_iff_toNat_lt, UInt16.lt_iff_toNat_lt, high, wrapLow, distance, top]
    unfold InStep at h
    omega
  refine Range.exchange_eq low (h.wraps_next.trans wraps.symm) ?_ h.maxSeq_next
    fun none => absurd none started
  rw [wraps, UInt16.lt_iff_toNat_lt, ← UInt16.toNat_inj]
  show _ = 0xFFFF ∨ _
  omega

/-- At the beginning of a stream two numbers of the same cycle may come in either order. -/
theorem exchange_first (low : a ≠ 0xFFFF) :
    (({} : Range).hear a).hear (a + 1) = (({} : Range).hear (a + 1)).hear a := by
  have calm : ∀ x, ¬ ({} : Range).wraps x := fun x wrap => absurd wrap.1 (by decide)
  refine exchange_eq low (iff_of_false (calm _) (calm _)) (.inr ?_) (inStep_first a).2
    fun _ => if_neg (calm _)
  have below := toNat_ne_top low
  have bound := a.toNat_lt
  rw [UInt16.lt_iff_toNat_lt, toNat_next]
  show 0 < _
  omega

/-! ## The exchange at a wrap -/

theorem not_wraps_top (t : Range) : ¬ t.wraps 0xFFFF := fun wrap => absurd wrap.2.1 (by decide)

/-- The end of a cycle never moves the beginning down. -/
theorem base_hear_top {base : UInt16} (found : t.base = some base) :
    (t.hear 0xFFFF).base = some base := by
  have bound := base.toNat_lt
  show some (t.baseAfter _) = _
  unfold baseAfter
  rw [found]
  refine congrArg some (if_neg fun lower => ?_)
  have below := lower.2
  rw [UInt16.lt_iff_toNat_lt] at below
  have top : (0xFFFF : UInt16).toNat = 0xFFFF := rfl
  omega

/-- If the last number of a cycle comes after the first one of the next, it is taken for the end of
the new cycle. -/
theorem InStep.ahead (h : t.InStep) (started : t.base ≠ none) (heard : 0 < t.packets)
    (last : t.maxSeq + 1 = 0xFFFF) :
    Ahead ((t.hear 0xFFFF).hear 0) ((t.hear 0).hear 0xFFFF)
      ∧ ((t.hear 0xFFFF).hear 0).InStep ∧ ((t.hear 0xFFFF).hear 0).maxSeq = 0 := by
  obtain ⟨base, found⟩ := Option.ne_none_iff_exists'.1 started
  -- in order
  have next := h.next
  have max := h.maxSeq_next
  rw [last] at next max
  have wrap := next.wraps_next.2 max
  have done := next.next
  have zero := next.maxSeq_next
  rw [max, show (0xFFFF : UInt16) + 1 = 0 from rfl] at wrap done zero
  -- exchanged
  have early : t.wraps 0 := by
    have place : t.maxSeq.toNat = 0xFFFE := by
      have bound := t.maxSeq.toNat_lt
      have next := toNat_next t.maxSeq
      rw [last] at next
      have top : (0xFFFF : UInt16).toNat = 0xFFFF := rfl
      omega
    refine ⟨?_, by decide, ?_⟩
    · rw [UInt16.lt_iff_toNat_lt, place]
      decide
    · have distance : Receiver.wrapDistance = 0x1FFF := rfl
      unfold InStep at h
      omega
  have cycles : ((t.hear 0xFFFF).hear 0).cycles = t.cycles + 1 :=
    (if_pos wrap).trans (congrArg (· + 1) (if_neg (not_wraps_top t)))
  have first : (t.hear 0).cycles = t.cycles + 1 := if_pos early
  have cycles' : ((t.hear 0).hear 0xFFFF).cycles = t.cycles + 1 :=
    (if_neg (not_wraps_top _)).trans first
  have begins : ((t.hear 0xFFFF).hear 0).base = (t.hear 0).base := by
    have same : (t.hear 0xFFFF).cyclesAfter 0 = t.cyclesAfter 0 := cycles.trans first.symm
    show some ((t.hear 0xFFFF).baseAfter 0) = some (t.baseAfter 0)
    unfold baseAfter
    rw [base_hear_top found, found, same]
  have low : (t.hear 0).maxSeq = 0 := if_pos (.inl early)
  have since : ((t.hear 0).hear 0xFFFF).lastWrap = t.packets :=
    (if_neg (not_wraps_top _)).trans (if_pos early)
  refine ⟨⟨⟨_, begins.trans rfl, base_hear_top rfl⟩, cycles'.trans cycles.symm, rfl, ?_, ?_, ?_⟩,
    done, zero⟩
  · refine if_pos (.inr ?_)
    rw [low]
    decide
  · rw [since]
    exact heard
  · rw [since, zero]
    rfl

/-- So it is when the two come first. -/
theorem early_first : Early (((({} : Range).hear 0xFFFF).hear 0).hear 1)
    (((({} : Range).hear 0).hear 0xFFFF).hear 1) :=
  ⟨rfl, rfl, rfl, rfl, rfl, by decide⟩

/-! ## Which exchanges are noticed -/

theorem started_after {before : List UInt16} (some : before ≠ []) :
    (before.foldl hear {}).base ≠ none ∧ 0 < (before.foldl hear {}).packets := by
  obtain ⟨init, last, rfl⟩ := (List.eq_nil_or_concat before).resolve_left some
  rw [List.concat_eq_append, List.foldl_concat]
  exact ⟨Option.some_ne_none _, Nat.succ_pos _⟩

/-- The exchange of two numbers next to each other changes nothing, unless they are the last of a
cycle and the first of the next; then it does until the new cycle is over, or until the cycles wrap
if the two came first. -/
theorem exchange_saysSame_iff {before after : List UInt16}
    (order : Consecutive (before ++ a :: b :: after)) :
    SaysSame ((before ++ a :: b :: after).foldl hear {}) ((before ++ b :: a :: after).foldl hear {})
      ↔ a ≠ 0xFFFF
        ∨ if before = [] then 2 ^ 32 - 2 ^ 16 ≤ after.length else 2 ^ 16 - 1 ≤ after.length := by
  have front : Consecutive (before ++ [a]) := by
    rw [List.append_cons] at order
    exact order.left_of_append
  obtain ⟨rfl, back⟩ := List.isChain_cons_cons.1 order.right_of_append
  simp only [List.foldl_append, List.foldl_cons]
  by_cases low : a = 0xFFFF
  · subst low
    rw [or_iff_right (not_not_intro rfl), show (0xFFFF : UInt16) + 1 = 0 from rfl]
    split
    · rename_i first
      subst first
      cases after with
      | nil => exact iff_of_false (fun same => absurd same.1 (by decide)) (by decide)
      | cons next rest =>
        obtain ⟨rfl, back⟩ := List.isChain_cons_cons.1 back
        refine (early_first.foldl (.inr (by decide)) (.inr (by decide)) back).trans ?_
        rw [show (((({} : Range).hear 0xFFFF).hear 0).hear 1).position = 0x10001 from rfl,
          List.length_cons]
        omega
    · rename_i some
      obtain ⟨inStep, place⟩ := inStep_after some front
      obtain ⟨started, heard⟩ := started_after some
      obtain ⟨ahead, still, zero⟩ := inStep.ahead started heard place.symm
      refine (ahead.foldl still (by rw [zero]; exact back)).trans ?_
      rw [zero]
      show _ ≤ 0 + after.length ↔ _
      omega
  · refine iff_of_true ?_ (.inl low)
    suffices same : ((before.foldl hear {}).hear a).hear (a + 1)
        = ((before.foldl hear {}).hear (a + 1)).hear a by
      rw [same]
      exact (Alike.refl _).saysSame
    by_cases first : before = []
    · subst first
      exact exchange_first low
    · obtain ⟨inStep, place⟩ := inStep_after first front
      rw [place] at low ⊢
      exact inStep.exchange_eq (started_after first).1 low

end Range

namespace Receiver

/-- **Which exchanges are not noticed.** Let two packets next to each other in a stream without gaps
change places; what else the packets hold, when they come and what else happens to the receiver is
arbitrary, and may be different, too. Then a receiver reports the same cycles, expects as many
packets and takes as many for lost as after the stream in order, if and only if

* the two are not the last packet of a cycle and the first one of the next; or
* they are, and something came before them, and the stream has gone through the new cycle; or
* they came first, and the stream has gone on until the cycles have wrapped. -/
theorem exchange_is_unnoticed_iff (sent arrived : List Event) (before after : List UInt16)
    (a b : UInt16) (order : Range.Consecutive (before ++ a :: b :: after))
    (inOrder : sent.filterMap Event.seq? = before ++ a :: b :: after)
    (exchanged : arrived.filterMap Event.seq? = before ++ b :: a :: after) :
    let r := ({} : Receiver).after sent
    let s := ({} : Receiver).after arrived
    s.cycles = r.cycles ∧ s.expected = r.expected ∧ s.lost = r.lost
      ↔ a ≠ 0xFFFF
        ∨ if before = [] then 2 ^ 32 - 2 ^ 16 ≤ after.length else 2 ^ 16 - 1 ≤ after.length := by
  intro r s
  have here : r.range = (before ++ a :: b :: after).foldl Range.hear {} := by
    rw [range_after, inOrder]
    rfl
  have there : s.range = (before ++ b :: a :: after).foldl Range.hear {} := by
    rw [range_after, exchanged]
    rfl
  have same := Range.exchange_saysSame_iff order
  rw [← here, ← there] at same
  rw [expected_eq_range, expected_eq_range, lost_eq_range, lost_eq_range]
  exact same

/-- Packets with the given numbers, all at the same time. -/
def packets (numbers : List UInt16) : List Event :=
  numbers.map fun seq => .media ⟨seq, 0, 0, 90000, 100⟩ 1000

/-- The first two packets of a cycle change places, and the receiver does not notice. -/
theorem exchange_is_unnoticed_iff_after_wrap :
    let r := ({} : Receiver).after (packets [65534, 65535, 0, 1, 2])
    let s := ({} : Receiver).after (packets [65534, 65535, 1, 0, 2])
    s.cycles = r.cycles ∧ s.expected = r.expected ∧ s.lost = r.lost :=
  (exchange_is_unnoticed_iff (packets [65534, 65535, 0, 1, 2]) (packets [65534, 65535, 1, 0, 2])
    [65534, 65535] [2] 0 1 (by decide) rfl rfl).2 (.inl (by decide))

/-- The last packet of a cycle and the first one of the next change places: three packets came of
three, and nearly a cycle is taken for lost. -/
theorem an_exchange_at_a_wrap_is_noticed :
    (({} : Receiver).after (packets [65534, 65535, 0])).lost = 0
      ∧ (({} : Receiver).after (packets [65534, 0, 65535])).cycles
        = (({} : Receiver).after (packets [65534, 65535, 0])).cycles
      ∧ (({} : Receiver).after (packets [65534, 0, 65535])).lost = 65535 :=
  ⟨rfl, rfl, rfl⟩

end Receiver

end CastHub.Rtcp
