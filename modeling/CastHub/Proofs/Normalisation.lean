import CastHub.Proofs.Wire
/-!
# Whatever is read can be written

The reader is lenient. It passes over padding, over bytes behind the items that a head counts, over
blocks of an unknown type and over the ends of blocks that are too long. So a packet may have come
in a roundabout form; it is written again in no more room, and read from there as it was
(`Packet.parse_normal`).

* `ReportItem.room_of_words` : items that were read count their losses in 24 bits, and are as many
  as the head says;
* `XrBlock.length_words_le` : blocks that were read take no more words than they were read from;
* `Packet.parse_eq_ok_iff` : which bytes a packet is read from;
* `Packet.fits_of_ofBody` : a packet that was read has room in the format.
-/

namespace CastHub.Rtcp

/-! ## Words -/

/-- Four bytes make a word. -/
theorem exists_four {bytes : List UInt8} (enough : 4 ≤ bytes.length) :
    ∃ a b c d rest, bytes = a :: b :: c :: d :: rest := by
  rcases bytes with _ | ⟨a, _ | ⟨b, _ | ⟨c, _ | ⟨d, rest⟩⟩⟩⟩
  case cons.cons.cons.cons => exact ⟨a, b, c, d, rest, rfl⟩
  all_goals
    simp only [List.length_cons, List.length_nil] at enough
    omega

/-- Bytes that make no word are fewer than four. -/
theorem length_lt_four {bytes : List UInt8}
    (short : ∀ a b c d rest, bytes = a :: b :: c :: d :: rest → False) : bytes.length < 4 := by
  apply Nat.lt_of_not_le
  intro enough
  obtain ⟨a, b, c, d, rest, isCons⟩ := exists_four enough
  exact short a b c d rest isCons

theorem length_wordsOf (bytes : List UInt8) : (wordsOf bytes).length = bytes.length / 4 := by
  induction bytes using wordsOf.induct with
  | case1 a b c d rest ih =>
    simp only [wordsOf, List.length_cons, ih]
    omega
  | case2 bytes short =>
    rw [wordsOf.eq_2 bytes short, Nat.div_eq_of_lt (length_lt_four short)]
    rfl

/-- Whole words of bytes come back from their words. -/
theorem bytesOf_wordsOf {bytes : List UInt8} (whole : 4 ∣ bytes.length) :
    bytesOf (wordsOf bytes) = bytes := by
  induction bytes using wordsOf.induct with
  | case1 a b c d rest ih =>
    simp only [List.length_cons] at whole
    rw [wordsOf, bytesOf_cons, wordBytes_byteWord, ih (by omega)]
    rfl
  | case2 bytes short =>
    have few := length_lt_four short
    obtain rfl : bytes = [] := List.eq_nil_of_length_eq_zero (by omega)
    rfl

/-- Whole words of bytes are read apart from what follows. -/
theorem wordsOf_append {front : List UInt8} (whole : 4 ∣ front.length) (rest : List UInt8) :
    wordsOf (front ++ rest) = wordsOf front ++ wordsOf rest := by
  induction front using wordsOf.induct with
  | case1 a b c d front ih =>
    simp only [List.length_cons] at whole
    simp only [List.cons_append, wordsOf, ih (by omega)]
  | case2 front short =>
    have few := length_lt_four short
    obtain rfl : front = [] := List.eq_nil_of_length_eq_zero (by omega)
    rfl

/-- Six words make an item. -/
theorem exists_six {words : List UInt32} (enough : 6 ≤ words.length) :
    ∃ a b c d e f rest, words = a :: b :: c :: d :: e :: f :: rest := by
  rcases words with _ | ⟨a, _ | ⟨b, _ | ⟨c, _ | ⟨d, _ | ⟨e, _ | ⟨f, rest⟩⟩⟩⟩⟩⟩
  case cons.cons.cons.cons.cons.cons => exact ⟨a, b, c, d, e, f, rest, rfl⟩
  all_goals
    simp only [List.length_cons, List.length_nil] at enough
    omega

/-! ## Items -/

namespace ReportItem

/-- An item that was read counts its losses in the 24 bits that it was read from. -/
theorem fits_of_mem {count : Nat} {words : List UInt32} {item : ReportItem}
    (mem : item ∈ ofWords count words) : item.Fits := by
  induction count, words using ofWords.induct with
  | case1 count ssrc lost seq jitter lastReport delay rest ih =>
    rw [ofWords] at mem
    rcases List.mem_cons.1 mem with rfl | later
    · show (UInt32.ofNat (lost.toNat % 0x1000000)).toNat < 0x1000000
      rw [UInt32.toNat_ofNat']
      omega
    · exact ih later
  | case2 count words short =>
    rw [ofWords.eq_2 count words short] at mem
    cases mem

theorem length_ofWords {count : Nat} {words : List UInt32} (enough : 6 * count ≤ words.length) :
    (ofWords count words).length = count := by
  induction count generalizing words with
  | zero => simp [ofWords]
  | succ count ih =>
    obtain ⟨ssrc, lost, seq, jitter, last, delay, rest, rfl⟩ :=
      exists_six (show 6 ≤ words.length by omega)
    simp only [List.length_cons] at enough
    rw [ofWords, List.length_cons, ih (by omega)]

/-- There is room for the items that were read, and for each of them. -/
theorem room_of_words {count : Nat} {words : List UInt32} (few : count < 32)
    (enough : 6 * count ≤ words.length) : (ofWords count words).length ≤ maxItems ∧
      ∀ item ∈ ofWords count words, item.Fits := by
  have most : maxItems = 31 := rfl
  refine ⟨?_, fun item mem => fits_of_mem mem⟩
  rw [length_ofWords enough]
  omega

end ReportItem

/-! ## Blocks -/

theorem DelayItem.length_ofWords_le (words : List UInt32) :
    3 * (ofWords words).length ≤ words.length := by
  induction words using ofWords.induct with
  | case1 ssrc lastReference delay rest ih =>
    simp only [ofWords, List.length_cons]
    omega
  | case2 words short =>
    rw [ofWords.eq_2 words short]
    exact Nat.zero_le _

namespace XrBlock

theorem length_body_le {type : Nat} {words : List UInt32} {block : XrBlock}
    (read : ofBody? type words = some block) : block.body.length ≤ words.length := by
  unfold ofBody? at read
  split at read
  · split at read
    · obtain rfl := Option.some.inj read
      simp only [body, List.length_cons, List.length_nil]
      omega
    · cases read
  · split at read
    · obtain rfl := Option.some.inj read
      simp only [body, DelayItem.length_words]
      exact DelayItem.length_ofWords_le words
    · cases read

theorem ofWords_of_le {head : UInt32} {rest : List UInt32} (inside : low16 head ≤ rest.length) :
    ofWords (head :: rest) = (ofWords (rest.drop (low16 head))).map
      ((ofBody? (top8 head) (rest.take (low16 head))).toList ++ ·) := by
  have full : ¬ (rest.take (low16 head)).length < low16 head := by
    rw [List.length_take]
    omega
  rw [ofWords]
  simp only [if_neg full]
  cases ofWords (rest.drop (low16 head)) <;> rfl

theorem ofWords_of_lt {head : UInt32} {rest : List UInt32} (outside : rest.length < low16 head) :
    ofWords (head :: rest) = .error (.truncated (4 * low16 head) (4 * rest.length)) := by
  have short : (rest.take (low16 head)).length < low16 head := by
    rw [List.length_take]
    omega
  rw [ofWords]
  simp only [if_pos short]

/-- Blocks are read one by one, each from the words that its head counts, which must be there. -/
theorem ofWords_cons_eq_ok {head : UInt32} {rest : List UInt32} {blocks : List XrBlock} :
    ofWords (head :: rest) = .ok blocks ↔ low16 head ≤ rest.length ∧
      ∃ later, ofWords (rest.drop (low16 head)) = .ok later ∧
        blocks = (ofBody? (top8 head) (rest.take (low16 head))).toList ++ later := by
  by_cases inside : low16 head ≤ rest.length
  · rw [ofWords_of_le inside]
    cases ofWords (rest.drop (low16 head)) with
    | error fault => simp [Except.map]
    | ok later => simp [Except.map, inside, eq_comm]
  · rw [ofWords_of_lt (Nat.lt_of_not_le inside)]
    simp [inside]

/-- The blocks that were read take no more words than they were read from. -/
theorem length_words_le {words : List UInt32} {blocks : List XrBlock}
    (read : ofWords words = .ok blocks) : (blocks.flatMap XrBlock.words).length ≤ words.length := by
  match words with
  | [] =>
    rw [ofWords] at read
    obtain rfl := Except.ok.inj read
    exact Nat.le_refl _
  | head :: rest =>
    obtain ⟨inside, later, readLater, rfl⟩ := ofWords_cons_eq_ok.1 read
    have behind := length_words_le readLater
    rw [List.length_drop] at behind
    -- the block itself, if it is one, fits into the words that its head counts
    have own : ((ofBody? (top8 head) (rest.take (low16 head))).toList.flatMap
        XrBlock.words).length ≤ low16 head + 1 := by
      cases isRead : ofBody? (top8 head) (rest.take (low16 head)) with
      | none => exact Nat.zero_le _
      | some block =>
        have short := length_body_le isRead
        rw [List.length_take] at short
        show (block.words ++ []).length ≤ low16 head + 1
        rw [List.append_nil, XrBlock.words, List.length_cons]
        omega
    rw [List.flatMap_append, List.length_append, List.length_cons]
    omega
termination_by words.length
decreasing_by
  simp only [List.length_cons, List.length_drop]
  omega

end XrBlock

/-! ## Packets -/

namespace Packet

variable {data : List UInt8} {p : Packet} {n : Nat}

theorem senderOfBody_eq_ok_iff {count : Nat} {words : List UInt32} :
    senderOfBody count words = .ok p ↔
      ∃ ssrc seconds fraction rtpStamp packetCount octetCount rest,
        words = ssrc :: seconds :: fraction :: rtpStamp :: packetCount :: octetCount :: rest ∧
          6 * count ≤ rest.length ∧
          p = .sender ⟨ssrc, ⟨seconds, fraction⟩, rtpStamp, packetCount, octetCount,
            ReportItem.ofWords count rest⟩ := by
  unfold senderOfBody
  constructor
  · intro read
    split at read
    · cases read
    · rename_i enough
      split at read
      · rename_i ssrc seconds fraction rtpStamp packetCount octetCount rest
        simp only [List.length_cons] at enough
        exact ⟨ssrc, seconds, fraction, rtpStamp, packetCount, octetCount, rest, rfl, by omega,
          (Except.ok.inj read).symm⟩
      · cases read
  · rintro ⟨ssrc, seconds, fraction, rtpStamp, packetCount, octetCount, rest, rfl, enough, rfl⟩
    rw [if_neg]
    simp only [List.length_cons]
    omega

theorem receiverOfBody_eq_ok_iff {count : Nat} {words : List UInt32} :
    receiverOfBody count words = .ok p ↔ ∃ ssrc rest, words = ssrc :: rest ∧
      6 * count ≤ rest.length ∧ p = .receiver ⟨ssrc, ReportItem.ofWords count rest⟩ := by
  unfold receiverOfBody
  constructor
  · intro read
    split at read
    · cases read
    · rename_i enough
      split at read
      · rename_i ssrc rest
        simp only [List.length_cons] at enough
        exact ⟨ssrc, rest, rfl, by omega, (Except.ok.inj read).symm⟩
      · cases read
  · rintro ⟨ssrc, rest, rfl, enough, rfl⟩
    rw [if_neg]
    simp only [List.length_cons]
    omega

theorem extendedOfBody_eq_ok_iff {words : List UInt32} :
    extendedOfBody words = .ok p ↔ ∃ ssrc rest blocks, words = ssrc :: rest ∧
      XrBlock.ofWords rest = .ok blocks ∧ p = .extended ⟨ssrc, blocks⟩ := by
  unfold extendedOfBody
  constructor
  · intro read
    split at read
    · cases read
    · rename_i ssrc rest
      cases made : XrBlock.ofWords rest with
      | error fault =>
        rw [made] at read
        cases read
      | ok blocks =>
        rw [made] at read
        exact ⟨ssrc, rest, blocks, rfl, made, (Except.ok.inj read).symm⟩
  · rintro ⟨ssrc, rest, blocks, rfl, made, rfl⟩
    simp only [made]
    rfl

/-- A packet that was read has room in the format, and takes no more words than it was read
from. -/
theorem fits_of_ofBody {type : PacketType} {count : Nat} {words : List UInt32}
    (few : count < 32) (short : words.length < 0x10000) (read : ofBody type count words = .ok p) :
    p.Fits ∧ p.body.length ≤ words.length := by
  cases type with
  | sender =>
    obtain ⟨_, _, _, _, _, _, rest, rfl, enough, rfl⟩ := senderOfBody_eq_ok_iff.1 read
    refine ⟨ReportItem.room_of_words few enough, ?_⟩
    simp only [body, List.length_append, List.length_cons, List.length_nil,
      ReportItem.length_words, ReportItem.length_ofWords enough]
    omega
  | receiver =>
    obtain ⟨_, rest, rfl, enough, rfl⟩ := receiverOfBody_eq_ok_iff.1 read
    refine ⟨ReportItem.room_of_words few enough, ?_⟩
    simp only [body, List.length_cons, ReportItem.length_words, ReportItem.length_ofWords enough]
    omega
  | extended =>
    obtain ⟨_, rest, blocks, rfl, made, rfl⟩ := extendedOfBody_eq_ok_iff.1 read
    have less := XrBlock.length_words_le made
    simp only [List.length_cons] at short
    constructor
    · show 4 + (blocks.map XrBlock.size).sum ≤ 262140
      rw [XrBlock.sum_size]
      omega
    · simp only [body, List.length_cons]
      omega

/-- **Which bytes a packet is read from**: their head has the version and a known type, as many
bytes follow as it counts, and these make the packet. What comes behind them does not matter. -/
theorem parse_eq_ok_iff : parse data = .ok (p, n) ↔
    ∃ first second third fourth rest type, data = first :: second :: third :: fourth :: rest ∧
      first.toNat / 64 = version ∧ PacketType.ofCode? second.toNat = some type ∧
      n = 4 * (third.toNat * 0x100 + fourth.toNat) + 4 ∧ n ≤ data.length ∧
      ofBody type (first.toNat % 32) (wordsOf (rest.take (n - 4))) = .ok p := by
  constructor
  · intro read
    unfold parse at read
    split at read
    · rename_i first second third fourth rest
      split at read
      · cases read
      · rename_i isVersion
        split at read
        · cases read
        · rename_i type isType
          simp only at read
          split at read
          · cases read
          · rename_i enough
            rw [List.length_take] at enough
            cases made : ofBody type (first.toNat % 32)
                (wordsOf (rest.take (4 * (third.toNat * 0x100 + fourth.toNat)))) with
            | error fault =>
              rw [made] at read
              cases read
            | ok q =>
              rw [made] at read
              obtain ⟨rfl, rfl⟩ := Prod.mk.inj (Except.ok.inj read)
              refine ⟨first, second, third, fourth, rest, type, rfl, Decidable.not_not.1 isVersion,
                isType, rfl, ?_, ?_⟩
              · simp only [List.length_cons]
                omega
              · rw [Nat.add_sub_cancel, made]
    · cases read
  · rintro ⟨first, second, third, fourth, rest, type, rfl, isVersion, isType, rfl, enough, made⟩
    rw [Nat.add_sub_cancel] at made
    simp only [List.length_cons] at enough
    have there : ¬ (rest.take (4 * (third.toNat * 0x100 + fourth.toNat))).length
        < 4 * (third.toNat * 0x100 + fourth.toNat) := by
      rw [List.length_take]
      omega
    simp only [parse, isVersion, isType, there, made, ne_eq, not_true_eq_false, if_false]
    rfl

/-- **Whatever is read can be written again.** If a packet is read from some bytes, it takes at
least its head, no more than there is, and whole words; whatever follows these bytes does not
matter; and the packet is encoded, in no more bytes, and read from them as it was. -/
theorem parse_normal (read : parse data = .ok (p, n)) :
    4 ≤ n ∧ n ≤ data.length ∧ 4 ∣ n ∧
    (∀ rest, parse (data.take n ++ rest) = .ok (p, n)) ∧
    ∃ bytes, p.encode = .ok bytes ∧ bytes.length ≤ n ∧ parse bytes = .ok (p, bytes.length) := by
  obtain ⟨first, second, third, fourth, behind, type, isData, isVersion, isType, isLength, enough,
    made⟩ := parse_eq_ok_iff.1 read
  have low : fourth.toNat < 256 := fourth.toNat_lt
  have high : third.toNat < 256 := third.toNat_lt
  refine ⟨by omega, enough, by omega, fun rest => ?_, ?_⟩
  · have isFront : data.take n ++ rest = first :: second :: third :: fourth ::
        (behind.take (n - 4) ++ rest) := by
      rw [isData, isLength]
      rfl
    have whole : (behind.take (n - 4)).length = n - 4 := by
      rw [isData] at enough
      simp only [List.length_cons] at enough
      rw [List.length_take]
      omega
    refine parse_eq_ok_iff.2 ⟨first, second, third, fourth, _, type, isFront, isVersion, isType,
      isLength, ?_, ?_⟩
    · rw [List.length_append, List.length_take]
      omega
    · rw [List.take_left' whole, made]
  · have words : (wordsOf (behind.take (n - 4))).length ≤ (n - 4) / 4 := by
      rw [length_wordsOf, List.length_take]
      omega
    obtain ⟨fits, less⟩ := fits_of_ofBody (by omega) (by omega) made
    have again := fits.parse_words []
    rw [List.append_nil] at again
    refine ⟨_, fits.encode_eq, ?_, again⟩
    rw [length_of_encode fits.encode_eq]
    omega

/-- An extended report in a roundabout form: with the padding bit, a block of an unknown type, a
reference time with a word too many, and answers that leave a word over. -/
def roundabout : List UInt8 :=
  [0xA0, 207, 0, 12] ++ bytesOf [7,
    headWord 9 0 1, 1,
    headWord 4 0 3, 8, 9, 10,
    headWord 5 0 4, 11, 12, 13, 14]

/-- So it is with an extended report in a roundabout form, before two other bytes. -/
theorem parse_normal_roundabout :
    ∃ p n, parse (roundabout ++ [1, 2]) = .ok (p, n) ∧
      4 ≤ n ∧ n ≤ (roundabout ++ [1, 2]).length ∧ 4 ∣ n ∧
      (∀ rest, parse ((roundabout ++ [1, 2]).take n ++ rest) = .ok (p, n)) ∧
      ∃ bytes, p.encode = .ok bytes ∧ bytes.length ≤ n ∧ parse bytes = .ok (p, bytes.length) := by
  have read : parse (roundabout ++ [1, 2])
      = .ok (.extended ⟨7, [.referenceTime ⟨8, 9⟩, .delays [⟨11, 12, 13⟩]]⟩, 52) := by
    cbv
  exact ⟨_, _, read, parse_normal read⟩

end Packet

end CastHub.Rtcp
