import CastHub.Rtcp.Wire
import Mathlib.Algebra.GroupWithZero.Nat
/-!
# Control packets come back from the wire

Whatever has room in the format is written and read back as it was, whatever follows it in the
datagram (`Packet.parse_encode`). The way there goes up the layers of the format:

* `wordsOf_bytesOf` : words come back from their bytes;
* `toNat_headWord` : the parts of a head come back from its word;
* `ReportItem.ofWords_words`, `DelayItem.ofWords_words` : items come back from their words;
* `XrBlock.ofWords_words` : blocks do, and reading stops where writing did, because each block
  counts its own words.
-/

namespace CastHub.Rtcp

/-! ## Words and bytes -/

/-- A word comes back from its four bytes. -/
theorem byteWord_wordBytes (w : UInt32) :
    byteWord (UInt8.ofNat (w.toNat / 0x1000000)) (UInt8.ofNat (w.toNat / 0x10000))
      (UInt8.ofNat (w.toNat / 0x100)) (UInt8.ofNat w.toNat) = w := by
  have hw : w.toNat < 4294967296 := w.toNat_lt
  apply UInt32.toNat_inj.1
  simp only [byteWord, UInt8.toNat_ofNat', UInt32.toNat_ofNat']
  omega

/-- Bytes come back from their word. -/
theorem wordBytes_byteWord (a b c d : UInt8) : wordBytes (byteWord a b c d) = [a, b, c, d] := by
  have ha : a.toNat < 256 := a.toNat_lt
  have hb : b.toNat < 256 := b.toNat_lt
  have hc : c.toNat < 256 := c.toNat_lt
  have hd : d.toNat < 256 := d.toNat_lt
  simp only [wordBytes, byteWord, UInt32.toNat_ofNat', List.cons.injEq, ← UInt8.toNat_inj,
    UInt8.toNat_ofNat', and_true]
  omega

theorem bytesOf_cons (w : UInt32) (ws : List UInt32) :
    bytesOf (w :: ws) = wordBytes w ++ bytesOf ws :=
  List.flatMap_cons ..

theorem length_bytesOf (ws : List UInt32) : (bytesOf ws).length = 4 * ws.length := by
  induction ws with
  | nil => rfl
  | cons w rest ih =>
    rw [bytesOf_cons, List.length_append, ih, List.length_cons]
    have four : (wordBytes w).length = 4 := rfl
    omega

/-- Words come back from their bytes. -/
theorem wordsOf_bytesOf (ws : List UInt32) : wordsOf (bytesOf ws) = ws := by
  induction ws with
  | nil => rfl
  | cons w rest ih =>
    rw [bytesOf_cons]
    simp only [wordBytes, List.cons_append, List.nil_append, wordsOf]
    rw [byteWord_wordBytes, ih]

theorem drop_bytesOf (n : Nat) (ws : List UInt32) :
    (bytesOf ws).drop (4 * n) = bytesOf (ws.drop n) := by
  induction n generalizing ws with
  | zero => rfl
  | succ n ih =>
    cases ws with
    | nil => simp [bytesOf]
    | cons w rest =>
      rw [List.drop_succ_cons, ← ih rest, bytesOf_cons]
      rfl

theorem take_bytesOf (n : Nat) (ws : List UInt32) :
    (bytesOf ws).take (4 * n) = bytesOf (ws.take n) := by
  induction n generalizing ws with
  | zero => rfl
  | succ n ih =>
    cases ws with
    | nil => simp [bytesOf]
    | cons w rest =>
      rw [List.take_succ_cons, bytesOf_cons, bytesOf_cons, ← ih rest]
      rfl

/-! ## Heads -/

/-- The parts of a head stand side by side in its word. -/
theorem toNat_headWord {first second length : Nat} (h₁ : first < 0x100) (h₂ : second < 0x100)
    (h₃ : length < 0x10000) :
    (headWord first second length).toNat = first * 0x1000000 + second * 0x10000 + length := by
  unfold headWord
  rw [UInt32.toNat_ofNat', Nat.mod_eq_of_lt h₁, Nat.mod_eq_of_lt h₂, Nat.mod_eq_of_lt h₃]
  omega

/-! ## Items of reports -/

namespace ReportItem

/-- Whether the packets lost in all can be counted in the 24 bits that travel. -/
def Fits (item : ReportItem) : Prop := item.cumulativeLost.toNat < 0x1000000

instance (item : ReportItem) : Decidable item.Fits :=
  inferInstanceAs (Decidable (item.cumulativeLost.toNat < 0x1000000))

theorem toNat_join8 (high : UInt8) {low : UInt32} (h : low.toNat < 0x1000000) :
    (join8 high low).toNat = high.toNat * 0x1000000 + low.toNat := by
  have hh : high.toNat < 256 := high.toNat_lt
  unfold join8
  rw [UInt32.toNat_ofNat', Nat.mod_eq_of_lt h]
  omega

theorem toNat_join16 (high low : UInt16) :
    (join16 high low).toNat = high.toNat * 0x10000 + low.toNat := by
  have hh : high.toNat < 65536 := high.toNat_lt
  have hl : low.toNat < 65536 := low.toNat_lt
  unfold join16
  rw [UInt32.toNat_ofNat']
  omega

theorem top8_join8 (high : UInt8) {low : UInt32} (h : low.toNat < 0x1000000) :
    top8 (join8 high low) = high.toNat := by
  unfold top8
  rw [toNat_join8 high h]
  omega

theorem low24_join8 (high : UInt8) {low : UInt32} (h : low.toNat < 0x1000000) :
    (join8 high low).toNat % 0x1000000 = low.toNat := by
  rw [toNat_join8 high h]
  omega

theorem top16_join16 (high low : UInt16) : (join16 high low).toNat / 0x10000 = high.toNat := by
  have hl : low.toNat < 65536 := low.toNat_lt
  rw [toNat_join16]
  omega

theorem low16_join16 (high low : UInt16) : low16 (join16 high low) = low.toNat := by
  have hl : low.toNat < 65536 := low.toNat_lt
  unfold low16
  rw [toNat_join16]
  omega

/-- An item comes back from its six words, whatever follows. -/
theorem ofWords_cons {item : ReportItem} (h : item.Fits) (n : Nat) (rest : List UInt32) :
    ofWords (n + 1) (item.words ++ rest) = item :: ofWords n rest := by
  simp only [words, List.cons_append, List.nil_append, ofWords]
  rw [top8_join8 item.fractionLost h, low24_join8 item.fractionLost h, top16_join16, low16_join16,
    UInt8.ofNat_toNat, UInt32.ofNat_toNat, UInt16.ofNat_toNat, UInt16.ofNat_toNat]

/-- Items come back from their words. -/
theorem ofWords_words {items : List ReportItem} (h : ∀ item ∈ items, item.Fits) :
    ofWords items.length (items.flatMap words) = items := by
  induction items with
  | nil => rfl
  | cons item rest ih =>
    obtain ⟨here, later⟩ := List.forall_mem_cons.1 h
    rw [List.length_cons, List.flatMap_cons, ofWords_cons here, ih later]

theorem length_words (items : List ReportItem) :
    (items.flatMap words).length = 6 * items.length := by
  induction items with
  | nil => rfl
  | cons item rest ih =>
    rw [List.flatMap_cons, List.length_append, ih, List.length_cons]
    have six : item.words.length = 6 := rfl
    omega

end ReportItem

/-! ## Blocks of extended reports -/

namespace DelayItem

/-- Items come back from their words. -/
theorem ofWords_words (items : List DelayItem) : ofWords (items.flatMap words) = items := by
  induction items with
  | nil => rfl
  | cons item rest ih =>
    rw [List.flatMap_cons]
    simp only [words, List.cons_append, List.nil_append, ofWords]
    rw [ih]

theorem length_words (items : List DelayItem) :
    (items.flatMap words).length = 3 * items.length := by
  induction items with
  | nil => rfl
  | cons item rest ih =>
    rw [List.flatMap_cons, List.length_append, ih, List.length_cons]
    have three : item.words.length = 3 := rfl
    omega

end DelayItem

namespace XrBlock

/-- How many bytes a block takes. -/
def size : XrBlock → Nat
  | referenceTime _ => 12
  | delays items => 4 + 12 * items.length

theorem size_eq (block : XrBlock) : block.size = 4 * block.words.length := by
  cases block with
  | referenceTime ntp => rfl
  | delays items =>
    simp only [size, words, body, List.length_cons, DelayItem.length_words]
    omega

theorem ofBody?_body (block : XrBlock) : ofBody? block.type block.body = some block := by
  cases block with
  | referenceTime ntp => rfl
  | delays items =>
    have apart : delaysType ≠ referenceTimeType := by decide
    simp only [ofBody?, type, body, if_neg apart, if_true, DelayItem.ofWords_words]

theorem type_lt (block : XrBlock) : block.type < 0x100 := by
  cases block with
  | referenceTime ntp => exact (by decide : referenceTimeType < 0x100)
  | delays items => exact (by decide : delaysType < 0x100)

/-- A block comes back from its words, and what follows is read as if it stood alone. -/
theorem ofWords_cons {block : XrBlock} (h : block.body.length < 0x10000) (rest : List UInt32) :
    ofWords (block.words ++ rest) = (ofWords rest).map (block :: ·) := by
  have head := toNat_headWord block.type_lt (by decide : 0 < 0x100) h
  have length : low16 (headWord block.type 0 block.body.length) = block.body.length := by
    unfold low16
    omega
  have type : top8 (headWord block.type 0 block.body.length) = block.type := by
    unfold top8
    omega
  rw [words, List.cons_append, ofWords]
  simp only [length, type, List.take_left', List.drop_left', Nat.lt_irrefl, if_false]
  rw [ofBody?_body]
  cases ofWords rest <;> rfl

/-- Blocks come back from their words. -/
theorem ofWords_words {blocks : List XrBlock} (h : ∀ block ∈ blocks, block.body.length < 0x10000) :
    ofWords (blocks.flatMap words) = .ok blocks := by
  induction blocks with
  | nil =>
    rw [List.flatMap_nil, ofWords]
  | cons block rest ih =>
    obtain ⟨here, later⟩ := List.forall_mem_cons.1 h
    rw [List.flatMap_cons, ofWords_cons here, ih later]
    rfl

theorem sum_size (blocks : List XrBlock) :
    (blocks.map size).sum = 4 * (blocks.flatMap words).length := by
  induction blocks with
  | nil => rfl
  | cons block rest ih =>
    rw [List.map_cons, List.sum_cons, List.flatMap_cons, List.length_append, ih, size_eq]
    omega

/-- A block among others takes no more room than they do together. -/
theorem length_body_lt {blocks : List XrBlock} {block : XrBlock} (mem : block ∈ blocks) :
    block.body.length < (blocks.flatMap words).length := by
  induction blocks with
  | nil => cases mem
  | cons first rest ih =>
    rw [List.flatMap_cons, List.length_append]
    rcases List.mem_cons.1 mem with rfl | later
    · have own : block.words.length = block.body.length + 1 := rfl
      omega
    · have below := ih later
      omega

end XrBlock

/-! ## Packets -/

namespace Packet

/-- What the format has room for: at most 31 items, each of which counts its losses in 24 bits, and
blocks that take no more bytes than a head can count. -/
def Fits : Packet → Prop
  | sender r => r.items.length ≤ maxItems ∧ ∀ item ∈ r.items, item.Fits
  | receiver r => r.items.length ≤ maxItems ∧ ∀ item ∈ r.items, item.Fits
  | extended r => 4 + (r.blocks.map XrBlock.size).sum ≤ 262140

instance : (p : Packet) → Decidable p.Fits
  | sender r =>
    inferInstanceAs (Decidable (r.items.length ≤ maxItems ∧ ∀ item ∈ r.items, item.Fits))
  | receiver r =>
    inferInstanceAs (Decidable (r.items.length ≤ maxItems ∧ ∀ item ∈ r.items, item.Fits))
  | extended r => inferInstanceAs (Decidable (4 + (r.blocks.map XrBlock.size).sum ≤ 262140))

variable {p : Packet}

/-- A head can count the words of a packet that has room, and its items. -/
theorem Fits.counts (h : p.Fits) : p.body.length < 0x10000 ∧ p.itemCount ≤ maxItems := by
  have most : maxItems = 31 := rfl
  cases p with
  | sender r =>
    have items : r.items.length ≤ maxItems := h.1
    simp only [body, itemCount, List.length_append, List.length_cons, List.length_nil,
      ReportItem.length_words]
    omega
  | receiver r =>
    have items : r.items.length ≤ maxItems := h.1
    simp only [body, itemCount, List.length_cons, ReportItem.length_words]
    omega
  | extended r =>
    have bytes : 4 + (r.blocks.map XrBlock.size).sum ≤ 262140 := h
    rw [XrBlock.sum_size] at bytes
    simp only [body, itemCount, List.length_cons]
    omega

/-- A packet comes back from its body. -/
theorem Fits.ofBody_body (h : p.Fits) : ofBody p.type p.itemCount p.body = .ok p := by
  cases p with
  | sender r =>
    simp only [ofBody, type, itemCount, body, senderOfBody, List.length_cons, List.cons_append,
      List.nil_append, ReportItem.length_words]
    rw [ReportItem.ofWords_words h.2, if_neg (by omega)]
  | receiver r =>
    simp only [ofBody, type, itemCount, body, receiverOfBody, List.length_cons,
      ReportItem.length_words]
    rw [ReportItem.ofWords_words h.2, if_neg (by omega)]
  | extended r =>
    have small : ∀ block ∈ r.blocks, block.body.length < 0x10000 := by
      intro block mem
      have below := XrBlock.length_body_lt mem
      have all : (r.blocks.flatMap XrBlock.words).length + 1 < 0x10000 := h.counts.1
      omega
    simp only [ofBody, type, body, extendedOfBody]
    rw [XrBlock.ofWords_words small]
    rfl

theorem ofCode?_code (type : PacketType) : PacketType.ofCode? type.code = some type := by
  cases type <;> rfl

/-- Reading starts with a head and the bytes of as many words as it counts. -/
theorem parse_head {count : Nat} {type : PacketType} {words : List UInt32} (h : count < 32)
    (short : words.length < 0x10000) (rest : List UInt8) :
    parse (bytesOf (headWord (version * 64 + count) type.code words.length :: words) ++ rest)
      = (ofBody type count words).map (·, 4 * words.length + 4) := by
  have code : type.code < 0x100 := by cases type <;> decide
  have two : version = 2 := rfl
  have head := toNat_headWord (by omega : version * 64 + count < 0x100) code short
  -- the four bytes of the head, as the reader takes them apart
  have first : (UInt8.ofNat ((headWord (version * 64 + count) type.code words.length).toNat
      / 0x1000000)).toNat = version * 64 + count := by
    rw [UInt8.toNat_ofNat']
    omega
  have second : (UInt8.ofNat ((headWord (version * 64 + count) type.code words.length).toNat
      / 0x10000)).toNat = type.code := by
    rw [UInt8.toNat_ofNat']
    omega
  have third : (UInt8.ofNat ((headWord (version * 64 + count) type.code words.length).toNat
      / 0x100)).toNat * 0x100
      + (UInt8.ofNat (headWord (version * 64 + count) type.code words.length).toNat).toNat
      = words.length := by
    rw [UInt8.toNat_ofNat', UInt8.toNat_ofNat']
    omega
  have isVersion : (version * 64 + count) / 64 = version := by omega
  have isCount : (version * 64 + count) % 32 = count := by omega
  have body : (bytesOf words ++ rest).take (4 * words.length) = bytesOf words :=
    List.take_left' (length_bytesOf words)
  rw [bytesOf_cons]
  simp only [wordBytes, List.cons_append, List.nil_append, parse, first, second, third, isVersion,
    isCount, ofCode?_code, body, length_bytesOf, wordsOf_bytesOf, ne_eq, not_true_eq_false,
    Nat.lt_irrefl, if_false]

theorem encode_eq_ok_iff {bytes : List UInt8} :
    p.encode = .ok bytes ↔ p.itemCount ≤ maxItems ∧ bytes = bytesOf p.words := by
  unfold encode
  constructor
  · intro h
    split at h
    · cases h
    · rename_i room
      exact ⟨Nat.le_of_not_lt room, (Except.ok.inj h).symm⟩
  · rintro ⟨room, rfl⟩
    exact if_neg (Nat.not_lt_of_le room)

theorem length_of_encode {bytes : List UInt8} (h : p.encode = .ok bytes) :
    bytes.length = 4 * p.body.length + 4 := by
  rw [(encode_eq_ok_iff.1 h).2, length_bytesOf, words, List.length_cons]
  omega

/-- A packet that has room in the format is encoded as its words. -/
theorem Fits.encode_eq (h : p.Fits) : p.encode = .ok (bytesOf p.words) :=
  encode_eq_ok_iff.2 ⟨h.counts.2, rfl⟩

/-- A packet comes back from its words, whatever bytes follow. -/
theorem Fits.parse_words (h : p.Fits) (rest : List UInt8) :
    parse (bytesOf p.words ++ rest) = .ok (p, (bytesOf p.words).length) := by
  obtain ⟨short, few⟩ := h.counts
  have most : maxItems = 31 := rfl
  have count : p.itemCount % 32 = p.itemCount := Nat.mod_eq_of_lt (by omega)
  rw [length_of_encode h.encode_eq, words, count, parse_head (by omega) short rest, h.ofBody_body]
  rfl

/-- **Parsing undoes encoding.** A packet that has room in the format is encoded, and whatever
bytes follow it, parsing gives the packet back and takes exactly its bytes. -/
theorem parse_encode (h : p.Fits) (rest : List UInt8) :
    ∃ bytes, p.encode = .ok bytes ∧ parse (bytes ++ rest) = .ok (p, bytes.length) :=
  ⟨bytesOf p.words, h.encode_eq, h.parse_words rest⟩

/-- An extended report with a reference time, no answers, and one answer. -/
def answers : Packet :=
  extended ⟨7, [.referenceTime ⟨8, 9⟩, .delays [], .delays [⟨10, 11, 12⟩]]⟩

/-- So it is with an extended report that has an empty block, before three other bytes. -/
theorem parse_encode_answers : answers.Fits ∧
    ∃ bytes, answers.encode = .ok bytes ∧ parse (bytes ++ [1, 2, 3]) = .ok (answers, bytes.length) :=
  ⟨by decide, parse_encode (by decide) [1, 2, 3]⟩

end Packet

end CastHub.Rtcp
