import CastHub.Proofs.Bounds
/-!
# The grammar of control packets

Which bytes begin with a control packet, and what is wrong with all others. Both are said in bytes
and without the reader: `Packet.Accepted` lists what a packet needs, and `Packet.Rejected` has one
rule for each way to miss it, whose premises are that nothing before was missed. Blocks are the one
part that repeats. `XrBlock.Whole` are sequences of blocks that are all there, and `XrBlock.Broken`
those whose last block is not.

* `XrBlock.whole_or_broken`, `Packet.accepted_or_rejected` : there is nothing else;
* `XrBlock.Whole.read`, `XrBlock.Broken.read` : what the reader makes of blocks;
* `Packet.Accepted.read`, `Packet.Rejected.read` : and of packets.

So the reader accepts exactly the grammar, and its error names the first thing that is missed
(`Packet.parse_accepts_its_grammar`).
-/

namespace CastHub.Rtcp

/-! ## Words of bytes -/

theorem low16_byteWord (a b c d : UInt8) :
    low16 (byteWord a b c d) = c.toNat * 0x100 + d.toNat := by
  have ha : a.toNat < 256 := a.toNat_lt
  have hb : b.toNat < 256 := b.toNat_lt
  have hc : c.toNat < 256 := c.toNat_lt
  have hd : d.toNat < 256 := d.toNat_lt
  rw [low16, byteWord, UInt32.toNat_ofNat']
  omega

/-! ## Blocks -/

namespace XrBlock

/-- Blocks that are all there. Each has a type, a byte that says nothing, the number of its words in
two bytes, and these words. -/
inductive Whole : List UInt8 → Prop
  | nil : Whole []
  | cons (type pad high low : UInt8) {content rest : List UInt8} :
    content.length = 4 * (high.toNat * 0x100 + low.toNat) → Whole rest →
      Whole (type :: pad :: high :: low :: (content ++ rest))

/-- Blocks up to one that is not all there: so many bytes it needs behind its head, and so many
there are. -/
inductive Broken : List UInt8 → Nat → Nat → Prop
  | here (type pad high low : UInt8) {content : List UInt8} :
    content.length < 4 * (high.toNat * 0x100 + low.toNat) →
      Broken (type :: pad :: high :: low :: content) (4 * (high.toNat * 0x100 + low.toNat))
        content.length
  | later (type pad high low : UInt8) {content rest : List UInt8} {needed available : Nat} :
    content.length = 4 * (high.toNat * 0x100 + low.toNat) → Broken rest needed available →
      Broken (type :: pad :: high :: low :: (content ++ rest)) needed available

/-- Whole words are blocks that are all there, or up to one that is not. -/
theorem whole_or_broken (bytes : List UInt8) (words : 4 ∣ bytes.length) :
    Whole bytes ∨ ∃ needed available, Broken bytes needed available := by
  -- the induction is on what is left behind the first block
  induction length : bytes.length using Nat.strongRecOn generalizing bytes with
  | ind n ih =>
    by_cases empty : bytes = []
    · subst empty
      exact .inl .nil
    · have some : 0 < bytes.length := List.length_pos_iff.2 empty
      obtain ⟨type, pad, high, low, behind, rfl⟩ := exists_four (Nat.le_of_dvd some words)
      simp only [List.length_cons] at words length
      by_cases inside : 4 * (high.toNat * 0x100 + low.toNat) ≤ behind.length
      · have size : (behind.take (4 * (high.toNat * 0x100 + low.toNat))).length
            = 4 * (high.toNat * 0x100 + low.toNat) := List.length_take_of_le inside
        have left : (behind.drop (4 * (high.toNat * 0x100 + low.toNat))).length
            = behind.length - 4 * (high.toNat * 0x100 + low.toNat) := List.length_drop
        have shorter : (behind.drop (4 * (high.toNat * 0x100 + low.toNat))).length < n := by omega
        have still : 4 ∣ (behind.drop (4 * (high.toNat * 0x100 + low.toNat))).length := by omega
        rw [← List.take_append_drop (4 * (high.toNat * 0x100 + low.toNat)) behind]
        rcases ih _ shorter _ still rfl with whole | ⟨needed, available, broken⟩
        · exact .inl (.cons type pad high low size whole)
        · exact .inr ⟨needed, available, .later type pad high low size broken⟩
      · exact .inr ⟨_, _, .here type pad high low (Nat.lt_of_not_le inside)⟩

/-! What the reader makes of blocks. -/

theorem ofWords_content (type pad high low : UInt8) {content : List UInt8} (rest : List UInt8)
    (size : content.length = 4 * (high.toNat * 0x100 + low.toNat)) :
    ofWords (wordsOf (type :: pad :: high :: low :: (content ++ rest)))
      = (ofWords (wordsOf rest)).map
          ((ofBody? (top8 (byteWord type pad high low)) (wordsOf content)).toList ++ ·) := by
  have count : (wordsOf content).length = low16 (byteWord type pad high low) := by
    rw [length_wordsOf, low16_byteWord]
    omega
  rw [wordsOf, wordsOf_append (size ▸ Nat.dvd_mul_right ..), ofWords_of_le,
    List.take_left' count, List.drop_left' count]
  rw [List.length_append]
  omega

/-- Blocks that are all there are read. -/
theorem Whole.read {bytes : List UInt8} (h : Whole bytes) :
    ∃ blocks, ofWords (wordsOf bytes) = .ok blocks := by
  induction h with
  | nil =>
    have none : wordsOf [] = [] := rfl
    rw [none, ofWords]
    exact ⟨_, rfl⟩
  | cons type pad high low size _ ih =>
    obtain ⟨later, read⟩ := ih
    rw [ofWords_content type pad high low _ size, read]
    exact ⟨_, rfl⟩

/-- A block that is not all there is an error, if there are only whole words. -/
theorem Broken.read {bytes : List UInt8} {needed available : Nat}
    (h : Broken bytes needed available) (words : 4 ∣ bytes.length) :
    ofWords (wordsOf bytes) = .error (.truncated needed available) := by
  induction h with
  | @here type pad high low content few =>
    simp only [List.length_cons] at words
    have count : 4 * (wordsOf content).length = content.length := by
      rw [length_wordsOf]
      omega
    rw [wordsOf, ofWords_of_lt, low16_byteWord, count]
    rw [low16_byteWord]
    omega
  | later type pad high low size _ ih =>
    simp only [List.length_cons, List.length_append] at words
    rw [ofWords_content type pad high low _ size, ih (by omega)]
    rfl

end XrBlock

/-! ## Packets -/

namespace Packet

variable {data : List UInt8} {e : WireError}

/-- A head with the version and a known type, and as many bytes as it counts. -/
structure HasHead (data : List UInt8) : Prop where
  there : 4 ≤ data.length
  version : versionAt data = 2
  type : typeAt data ∈ [200, 201, 207]
  enough : totalAt data ≤ data.length

/-- Bytes that begin with a packet. The body of a report has room for the items that its head
counts, behind what it says of its sender or receiver; that of an extended report has a source and
blocks that are all there. -/
structure Accepted (data : List UInt8) : Prop extends HasHead data where
  sender : typeAt data = 200 → 24 + 24 * itemsAt data ≤ (bodyAt data).length
  receiver : typeAt data = 201 → 4 + 24 * itemsAt data ≤ (bodyAt data).length
  extended : typeAt data = 207 →
    ∃ source blocks, bodyAt data = source ++ blocks ∧ source.length = 4 ∧ XrBlock.Whole blocks

/-- Bytes that do not, with the first thing that they miss. -/
inductive Rejected (data : List UInt8) : WireError → Prop
  | there : data.length < 4 → Rejected data (.truncated 4 data.length)
  | version : 4 ≤ data.length → versionAt data ≠ 2 → Rejected data (.badVersion (versionAt data))
  | type : 4 ≤ data.length → versionAt data = 2 → typeAt data ∉ [200, 201, 207] →
    Rejected data (.unsupportedType (typeAt data))
  | enough : 4 ≤ data.length → versionAt data = 2 → typeAt data ∈ [200, 201, 207] →
    data.length < totalAt data → Rejected data (.truncated (totalAt data) data.length)
  -- from here on there is a head, and what is missed is missed in the body
  | sender : HasHead data → typeAt data = 200 → (bodyAt data).length < 24 + 24 * itemsAt data →
    Rejected data (.truncated (24 + 24 * itemsAt data) (bodyAt data).length)
  | receiver : HasHead data → typeAt data = 201 → (bodyAt data).length < 4 + 24 * itemsAt data →
    Rejected data (.truncated (4 + 24 * itemsAt data) (bodyAt data).length)
  | source : HasHead data → typeAt data = 207 → (bodyAt data).length < 4 →
    Rejected data (.truncated 4 (bodyAt data).length)
  | block {source blocks : List UInt8} {needed available : Nat} : HasHead data →
    typeAt data = 207 → bodyAt data = source ++ blocks → source.length = 4 →
    XrBlock.Broken blocks needed available → Rejected data (.truncated needed available)

theorem HasHead.type_cases (head : HasHead data) :
    typeAt data = 200 ∨ typeAt data = 201 ∨ typeAt data = 207 := by
  simpa using head.type

/-- The body has whole words. -/
theorem HasHead.length_words (head : HasHead data) :
    4 * (wordsOf (bodyAt data)).length = (bodyAt data).length := by
  rw [length_wordsOf, length_bodyAt head.enough]
  omega

/-- All bytes begin with a packet, or they miss something. -/
theorem accepted_or_rejected (data : List UInt8) : Accepted data ∨ ∃ e, Rejected data e := by
  by_cases there : 4 ≤ data.length
  swap
  · exact .inr ⟨_, .there (Nat.lt_of_not_le there)⟩
  by_cases version : versionAt data = 2
  swap
  · exact .inr ⟨_, .version there version⟩
  by_cases type : typeAt data ∈ [200, 201, 207]
  swap
  · exact .inr ⟨_, .type there version type⟩
  by_cases enough : totalAt data ≤ data.length
  swap
  · exact .inr ⟨_, .enough there version type (Nat.lt_of_not_le enough)⟩
  have head : HasHead data := ⟨there, version, type, enough⟩
  rcases head.type_cases with isType | isType | isType
  · by_cases room : 24 + 24 * itemsAt data ≤ (bodyAt data).length
    · exact .inl ⟨head, fun _ => room, fun other => by omega, fun other => by omega⟩
    · exact .inr ⟨_, .sender head isType (Nat.lt_of_not_le room)⟩
  · by_cases room : 4 + 24 * itemsAt data ≤ (bodyAt data).length
    · exact .inl ⟨head, fun other => by omega, fun _ => room, fun other => by omega⟩
    · exact .inr ⟨_, .receiver head isType (Nat.lt_of_not_le room)⟩
  · by_cases room : 4 ≤ (bodyAt data).length
    · have source : ((bodyAt data).take 4).length = 4 := List.length_take_of_le room
      have split : bodyAt data = (bodyAt data).take 4 ++ (bodyAt data).drop 4 :=
        (List.take_append_drop ..).symm
      have words : 4 ∣ ((bodyAt data).drop 4).length := by
        rw [List.length_drop, ← head.length_words]
        omega
      rcases XrBlock.whole_or_broken _ words with whole | ⟨needed, available, broken⟩
      · exact .inl ⟨head, fun other => by omega, fun other => by omega,
          fun _ => ⟨_, _, split, source, whole⟩⟩
      · exact .inr ⟨_, .block head isType split source broken⟩
    · exact .inr ⟨_, .source head isType (Nat.lt_of_not_le room)⟩

/-! What the reader makes of packets. -/

theorem HasHead.parse (head : HasHead data) (type : PacketType) (isType : typeAt data = type.code) :
    parse data = (ofBody type (itemsAt data) (wordsOf (bodyAt data))).map (·, totalAt data) :=
  parse_of_body head.there head.version (isType ▸ ofCode?_code type) head.enough

theorem exists_ofCode? {code : Nat} (known : code ∈ [200, 201, 207]) :
    ∃ type, PacketType.ofCode? code = some type := by
  rcases (by simpa using known : code = 200 ∨ code = 201 ∨ code = 207) with rfl | rfl | rfl
  · exact ⟨.sender, rfl⟩
  · exact ⟨.receiver, rfl⟩
  · exact ⟨.extended, rfl⟩

theorem ofCode?_eq_none {code : Nat} (unknown : code ∉ [200, 201, 207]) :
    PacketType.ofCode? code = none := by
  apply List.find?_eq_none.2
  intro type _ same
  apply unknown
  rw [← beq_iff_eq.1 same]
  cases type <;> decide

theorem senderOfBody_of_le {count : Nat} {words : List UInt32}
    (room : 6 + 6 * count ≤ words.length) :
    ∃ p, senderOfBody count words = .ok p := by
  obtain ⟨ssrc, seconds, fraction, stamp, packets, octets, rest, rfl⟩ :=
    exists_six (show 6 ≤ words.length by omega)
  simp only [List.length_cons] at room
  exact ⟨_, senderOfBody_eq_ok_iff.2 ⟨_, _, _, _, _, _, _, rfl, by omega, rfl⟩⟩

theorem receiverOfBody_of_le {count : Nat} {words : List UInt32}
    (room : 1 + 6 * count ≤ words.length) : ∃ p, receiverOfBody count words = .ok p := by
  cases words with
  | nil =>
    simp only [List.length_nil] at room
    omega
  | cons ssrc rest =>
    simp only [List.length_cons] at room
    exact ⟨_, receiverOfBody_eq_ok_iff.2 ⟨_, _, rfl, by omega, rfl⟩⟩

theorem extendedOfBody_append {source : List UInt8} (four : source.length = 4)
    (blocks : List UInt8) : ∃ ssrc, extendedOfBody (wordsOf (source ++ blocks))
      = (XrBlock.ofWords (wordsOf blocks)).map fun found => .extended ⟨ssrc, found⟩ := by
  obtain ⟨a, b, c, d, rest, rfl⟩ := exists_four (Nat.le_of_eq four.symm)
  simp only [List.length_cons] at four
  obtain rfl : rest = [] := List.eq_nil_of_length_eq_zero (by omega)
  exact ⟨byteWord a b c d, rfl⟩

/-- Bytes that begin with a packet are read. -/
theorem Accepted.read (h : Accepted data) : ∃ p, Packet.parse data = .ok (p, totalAt data) := by
  have words := h.length_words
  rcases h.type_cases with isType | isType | isType
  · have room := h.sender isType
    have enough : 6 + 6 * itemsAt data ≤ (wordsOf (bodyAt data)).length := by omega
    obtain ⟨p, made⟩ := senderOfBody_of_le enough
    refine ⟨p, ?_⟩
    rw [h.parse .sender isType, ofBody, made]
    rfl
  · have room := h.receiver isType
    have enough : 1 + 6 * itemsAt data ≤ (wordsOf (bodyAt data)).length := by omega
    obtain ⟨p, made⟩ := receiverOfBody_of_le enough
    refine ⟨p, ?_⟩
    rw [h.parse .receiver isType, ofBody, made]
    rfl
  · obtain ⟨source, blocks, split, four, whole⟩ := h.extended isType
    obtain ⟨found, readBlocks⟩ := whole.read
    obtain ⟨ssrc, made⟩ := extendedOfBody_append four blocks
    refine ⟨.extended ⟨ssrc, found⟩, ?_⟩
    rw [h.parse .extended isType, ofBody, split, made, readBlocks]
    rfl

/-- All others are not, for the first thing that they miss. -/
theorem Rejected.read (h : Rejected data e) : Packet.parse data = .error e := by
  cases h with
  | there short => exact parse_of_short short
  | version there other => exact parse_of_version there other
  | type there version unknown => exact parse_of_type there version (ofCode?_eq_none unknown)
  | enough there version type short =>
    obtain ⟨kind, isKind⟩ := exists_ofCode? type
    exact parse_of_total there version isKind short
  | sender head isType few =>
    have words := head.length_words
    have short : (wordsOf (bodyAt data)).length < 6 + 6 * itemsAt data := by omega
    rw [head.parse .sender isType, ofBody, senderOfBody_of_lt short, words]
    rfl
  | receiver head isType few =>
    have words := head.length_words
    have short : (wordsOf (bodyAt data)).length < 1 + 6 * itemsAt data := by omega
    rw [head.parse .receiver isType, ofBody, receiverOfBody_of_lt short, words]
    rfl
  | source head isType few =>
    have words := head.length_words
    have none : wordsOf (bodyAt data) = [] := List.eq_nil_of_length_eq_zero (by omega)
    rw [none] at words
    rw [head.parse .extended isType, ofBody, none, ← words]
    rfl
  | @block source blocks needed available head isType split four broken =>
    have words := head.length_words
    obtain ⟨ssrc, made⟩ := extendedOfBody_append four blocks
    have behind : 4 ∣ blocks.length := by
      rw [split, List.length_append] at words
      omega
    rw [head.parse .extended isType, ofBody, split, made, broken.read behind]
    rfl

/-- **The reader accepts exactly the grammar.** It reads a packet from just those bytes that begin
with one; from all others it gives the error that says what they miss first; and byte by byte, it
gets there without a read that goes past the end of its slice. -/
theorem parse_accepts_its_grammar (data : List UInt8) :
    ((∃ p n, parse data = .ok (p, n)) ↔ Accepted data) ∧
    (∀ e, parse data = .error e ↔ Rejected data e) ∧
    Reading.packet data = some ((parse data).map (·, data)) := by
  refine ⟨⟨?_, ?_⟩, fun e => ⟨?_, Rejected.read⟩, Reading.packet_eq data⟩
  · rintro ⟨p, n, read⟩
    rcases accepted_or_rejected data with accepted | ⟨e, rejected⟩
    · exact accepted
    · rw [rejected.read] at read
      cases read
  · intro accepted
    obtain ⟨p, read⟩ := accepted.read
    exact ⟨p, _, read⟩
  · intro fault
    rcases accepted_or_rejected data with accepted | ⟨other, rejected⟩
    · obtain ⟨p, read⟩ := accepted.read
      rw [read] at fault
      cases fault
    · obtain rfl : other = e := Except.error.inj (rejected.read.symm.trans fault)
      exact rejected

end Packet

end CastHub.Rtcp
