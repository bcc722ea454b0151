import CastHub.Proofs.Normalisation
/-!
# What lengths on the wire say

A head counts the words behind it in 16 bits. Reports never have more than that, because no report
has more than 31 items. Nothing keeps an extended report from having more; then its length is
written modulo `2 ^ 16`, and so are those of its blocks (`Packet.countAt_of_encode`,
`Packet.countAt_block`).

So the lengths are true exactly if the packet takes no more than `2 ^ 18` bytes. Then a peer reads
the whole of it as one packet; otherwise it stops somewhere in the middle
(`Packet.encode_is_honest_iff`).
-/

namespace CastHub.Rtcp

/-- How many words the head at a given place says to follow. -/
def countAt (bytes : List UInt8) (place : Nat) : Nat :=
  (bytes.getD (place + 2) 0).toNat * 0x100 + (bytes.getD (place + 3) 0).toNat

theorem countAt_append (front bytes : List UInt8) :
    countAt (front ++ bytes) front.length = countAt bytes 0 := by
  have byte : ∀ i, (front ++ bytes).getD (front.length + i) 0 = bytes.getD (0 + i) 0 := by
    intro i
    rw [List.getD_eq_getElem?_getD, List.getElem?_append_right (Nat.le_add_right ..),
      Nat.add_sub_cancel_left, Nat.zero_add, List.getD_eq_getElem?_getD]
  unfold countAt
  rw [byte, byte]

/-- The length in a head is written modulo `2 ^ 16`. -/
theorem countAt_head (first second length : Nat) (words : List UInt32) :
    countAt (bytesOf (headWord first second length :: words)) 0 = length % 0x10000 := by
  rw [bytesOf_cons]
  show (UInt8.ofNat ((headWord first second length).toNat / 0x100)).toNat * 0x100
    + (UInt8.ofNat (headWord first second length).toNat).toNat = length % 0x10000
  rw [UInt8.toNat_ofNat', UInt8.toNat_ofNat', headWord, UInt32.toNat_ofNat']
  omega

/-- An item as it comes out of the wire: its losses are counted modulo `2 ^ 24`. -/
def ReportItem.asSent (item : ReportItem) : ReportItem :=
  { item with cumulativeLost := UInt32.ofNat (item.cumulativeLost.toNat % 0x1000000) }

theorem ReportItem.fits_asSent (item : ReportItem) : item.asSent.Fits := by
  show (UInt32.ofNat (item.cumulativeLost.toNat % 0x1000000)).toNat < 0x1000000
  rw [UInt32.toNat_ofNat']
  omega

theorem ReportItem.words_asSent (item : ReportItem) : item.asSent.words = item.words := by
  have same : join8 item.fractionLost item.asSent.cumulativeLost
      = join8 item.fractionLost item.cumulativeLost := by
    unfold join8 asSent
    rw [UInt32.toNat_ofNat']
    congr 2
    omega
  unfold words
  rw [← same]
  rfl

theorem ReportItem.words_map_asSent (items : List ReportItem) :
    (items.map asSent).flatMap words = items.flatMap words := by
  rw [List.flatMap_map]
  exact congrArg (List.flatMap · items) (funext words_asSent)

namespace Packet

variable {p : Packet} {bytes : List UInt8}

/-- A packet as it comes out of the wire. -/
def asSent : Packet → Packet
  | sender r => sender { r with items := r.items.map ReportItem.asSent }
  | receiver r => receiver { r with items := r.items.map ReportItem.asSent }
  | extended r => extended r

/-- The blocks of a packet; only extended reports have any. -/
def blocks : Packet → List XrBlock
  | extended r => r.blocks
  | _ => []

/-- The lengths in an encoding are true: the head counts the words of the packet, and the head of
each block those of the block. -/
structure Honest (p : Packet) (bytes : List UInt8) : Prop where
  whole : 4 * (countAt bytes 0 + 1) = bytes.length
  blocks : ∀ before block after, p.blocks = before ++ block :: after →
    countAt bytes (8 + (before.map XrBlock.size).sum) = block.body.length

/-! ## What is written -/

theorem body_asSent (p : Packet) : p.asSent.body = p.body := by
  cases p with
  | sender r => simp only [asSent, body, ReportItem.words_map_asSent]
  | receiver r => simp only [asSent, body, ReportItem.words_map_asSent]
  | extended r => rfl

theorem itemCount_asSent (p : Packet) : p.asSent.itemCount = p.itemCount := by
  cases p with
  | sender r => exact List.length_map ..
  | receiver r => exact List.length_map ..
  | extended r => rfl

theorem type_asSent (p : Packet) : p.asSent.type = p.type := by
  cases p <;> rfl

/-- A packet and what comes out of it are written alike. -/
theorem encode_asSent (p : Packet) : p.asSent.encode = p.encode := by
  unfold encode words
  rw [body_asSent, itemCount_asSent, type_asSent]

/-- A packet whose items and words can be counted has room in the format, but for its losses. -/
theorem fits_asSent (few : p.itemCount ≤ maxItems) (short : p.body.length < 0x10000) :
    p.asSent.Fits := by
  have sent : ∀ items : List ReportItem, ∀ item ∈ items.map ReportItem.asSent, item.Fits := by
    intro items item mem
    obtain ⟨old, _, rfl⟩ := List.mem_map.1 mem
    exact old.fits_asSent
  cases p with
  | sender r => exact ⟨(List.length_map _).symm ▸ few, sent r.items⟩
  | receiver r => exact ⟨(List.length_map _).symm ▸ few, sent r.items⟩
  | extended r =>
    show 4 + (r.blocks.map XrBlock.size).sum ≤ 262140
    simp only [body, List.length_cons] at short
    rw [XrBlock.sum_size]
    omega

/-- The head of a packet counts its words modulo `2 ^ 16`. -/
theorem countAt_of_encode (h : p.encode = .ok bytes) :
    countAt bytes 0 = p.body.length % 0x10000 := by
  rw [(encode_eq_ok_iff.1 h).2]
  exact countAt_head ..

/-- The head of each block counts the block's words modulo `2 ^ 16`. -/
theorem countAt_block (h : p.encode = .ok bytes) {before after : List XrBlock} {block : XrBlock}
    (isPart : p.blocks = before ++ block :: after) :
    countAt bytes (8 + (before.map XrBlock.size).sum) = block.body.length % 0x10000 := by
  cases p with
  | sender r => simp [Packet.blocks] at isPart
  | receiver r => simp [Packet.blocks] at isPart
  | extended r =>
    have isPart : r.blocks = before ++ block :: after := isPart
    -- the head of the packet, its source and the blocks before this one
    let front : List UInt32 := headWord (version * 64 + (extended r).itemCount % 32)
      (extended r).type.code (extended r).body.length :: r.ssrc :: before.flatMap XrBlock.words
    have split : bytes = bytesOf front
        ++ bytesOf (headWord block.type 0 block.body.length ::
            (block.body ++ after.flatMap XrBlock.words)) := by
      rw [(encode_eq_ok_iff.1 h).2, bytesOf, bytesOf, bytesOf, ← List.flatMap_append]
      congr 1
      simp only [front, words, body, isPart, List.flatMap_append, List.flatMap_cons, XrBlock.words,
        List.cons_append]
    have place : 8 + (before.map XrBlock.size).sum = (bytesOf front).length := by
      rw [length_bytesOf, XrBlock.sum_size]
      simp only [front, List.length_cons]
      omega
    rw [place, split, countAt_append, countAt_head]

/-- A report is short. -/
theorem length_body_lt_of_report (few : p.itemCount ≤ maxItems) (report : p.type ≠ .extended) :
    p.body.length < 0x10000 := by
  have most : maxItems = 31 := rfl
  cases p with
  | sender r =>
    have few : r.items.length ≤ maxItems := few
    simp only [body, List.length_append, List.length_cons, List.length_nil, ReportItem.length_words]
    omega
  | receiver r =>
    have few : r.items.length ≤ maxItems := few
    simp only [body, List.length_cons, ReportItem.length_words]
    omega
  | extended r => exact (report rfl).elim

/-- A block is shorter than its packet. -/
theorem length_block_lt {before after : List XrBlock} {block : XrBlock}
    (isPart : p.blocks = before ++ block :: after) : block.body.length < p.body.length := by
  cases p with
  | sender r => simp [Packet.blocks] at isPart
  | receiver r => simp [Packet.blocks] at isPart
  | extended r =>
    have mem : block ∈ r.blocks := by
      show block ∈ (extended r).blocks
      rw [isPart]
      exact List.mem_append_right _ (List.mem_cons_self ..)
    have below := XrBlock.length_body_lt mem
    simp only [body, List.length_cons]
    omega

/-- The lengths are true exactly if the head can count the words of the packet. -/
theorem honest_iff (h : p.encode = .ok bytes) : p.Honest bytes ↔ p.body.length < 0x10000 := by
  have count := countAt_of_encode h
  have length := length_of_encode h
  constructor
  · intro honest
    have whole := honest.whole
    omega
  · intro short
    refine ⟨by omega, fun before block after isPart => ?_⟩
    have below := length_block_lt isPart
    rw [countAt_block h isPart]
    omega

/-! ## What a peer makes of it -/

/-- **The lengths are true exactly if the packet takes no more than `2 ^ 18` bytes**, as all reports
do. Then a peer reads one packet from the encoding, with all its items and blocks, and takes every
byte; otherwise, if it reads a packet at all, it leaves some. -/
theorem encode_is_honest_iff (h : p.encode = .ok bytes) :
    (p.Honest bytes ↔ bytes.length ≤ 0x40000) ∧
    (p.type ≠ .extended → p.Honest bytes) ∧
    (p.Honest bytes → parse bytes = .ok (p.asSent, bytes.length)) ∧
    (¬ p.Honest bytes → ∀ q n, parse bytes = .ok (q, n) → n < bytes.length) := by
  have few := (encode_eq_ok_iff.1 h).1
  have length := length_of_encode h
  rw [honest_iff h]
  refine ⟨by omega, length_body_lt_of_report few, fun short => ?_, fun crowded q n read => ?_⟩
  · have fits := fits_asSent few short
    have encoded := fits.encode_eq
    have read := fits.parse_words []
    rw [encode_asSent, h] at encoded
    obtain rfl := Except.ok.inj encoded
    rwa [List.append_nil] at read
  · obtain ⟨first, second, third, fourth, rest, type, split, _, _, isLength, _⟩ :=
      parse_eq_ok_iff.1 read
    have high : third.toNat < 256 := third.toNat_lt
    have low : fourth.toNat < 256 := fourth.toNat_lt
    omega

/-- So it is with a short extended report. -/
theorem encode_is_honest_iff_answers : ∃ bytes, answers.encode = .ok bytes ∧
    (answers.Honest bytes ↔ bytes.length ≤ 0x40000) ∧
    (answers.type ≠ .extended → answers.Honest bytes) ∧
    (answers.Honest bytes → parse bytes = .ok (answers.asSent, bytes.length)) ∧
    (¬ answers.Honest bytes → ∀ q n, parse bytes = .ok (q, n) → n < bytes.length) :=
  ⟨_, rfl, encode_is_honest_iff rfl⟩

/-- An extended report with so many answers in one block. -/
def answering (count : Nat) : Packet :=
  extended ⟨7, [.delays (List.replicate count ⟨1, 2, 3⟩)]⟩

theorem length_body_answering (count : Nat) : (answering count).body.length = 3 * count + 2 := by
  show ((XrBlock.delays (List.replicate count ⟨1, 2, 3⟩)).words ++ []).length + 1 = 3 * count + 2
  rw [List.append_nil, XrBlock.words, List.length_cons, XrBlock.body, DelayItem.length_words,
    List.length_replicate]

theorem countAt_answering {count : Nat} (h : (answering count).encode = .ok bytes) :
    countAt bytes 8 = 3 * count % 0x10000 := by
  have isPart : (answering count).blocks = [] ++ [.delays (List.replicate count ⟨1, 2, 3⟩)] := rfl
  have counted := countAt_block h isPart
  rwa [XrBlock.body, DelayItem.length_words, List.length_replicate, List.map_nil, List.sum_nil,
    Nat.add_zero] at counted

/-- **A length wraps.** An extended report with 21846 answers is encoded, but its head counts 4
words behind it and not 65540, and the head of its only block counts 2 and not 65538. -/
theorem a_length_wraps : ∃ bytes, (answering 21846).encode = .ok bytes ∧
    bytes.length = 4 * (65540 + 1) ∧ countAt bytes 0 = 4 ∧ countAt bytes 8 = 2 ∧
    ¬ (answering 21846).Honest bytes := by
  have encoded : (answering 21846).encode = .ok (bytesOf (answering 21846).words) :=
    encode_eq_ok_iff.2 ⟨Nat.zero_le _, rfl⟩
  have words := length_body_answering 21846
  have head := countAt_of_encode encoded
  have length := length_of_encode encoded
  refine ⟨_, encoded, by omega, by omega, countAt_answering encoded, ?_⟩
  rw [honest_iff encoded]
  omega

end Packet

end CastHub.Rtcp
