import CastHub.Proofs.Heads
import Mathlib.Data.List.ReduceOption
/-!
# No read goes past the end of its slice

`Packet.parse` takes words off lists, and a list can always be taken apart. The bytes of a datagram
are taken off a slice instead: one reads four bytes here, two bytes there, from the slice of the
body or from that of a block, after a check of some length further up. `Reading` is the language of
such reads. It has three outcomes: a value, an error because a check failed, and nothing at all
because a read went past the end of its slice.

`Reading.packet` reads a packet byte by byte and check by check. It always has an outcome, and that
is the one of `Packet.parse` (`Reading.packet_eq`). The checks are in bytes and the lists are of
words; what connects the two is that every slice behind a head holds whole words, so each part has
one lemma about what it does to the bytes of some words:

* `Reading.word_append`, `Reading.item_words`, `Reading.delayItem_words` : parts of a fixed length;
* `Reading.times_item`, `Reading.whileLeft_delayItem` : as many of them as a head counts, or as a
  slice holds;
* `Reading.block_words`, `Reading.blocks_words` : blocks, each in a slice of its own;
* `Reading.body_words` : bodies.
-/

namespace CastHub.Rtcp

/-! ## The language -/

/-- A way to read from a slice of bytes. What comes of it is a value and what is left of the slice,
or the error of a check; or nothing, if a read goes past the end of the slice. -/
def Reading (α : Type) : Type := List UInt8 → Option (Except WireError (α × List UInt8))

namespace Reading

variable {α β : Type} {bytes rest : List UInt8}

instance : Monad Reading where
  pure a := fun bytes => some (.ok (a, bytes))
  bind m f := fun bytes =>
    match m bytes with
    | some (.ok (a, rest)) => f a rest
    | some (.error e) => some (.error e)
    | none => none

/-- The error of a check. -/
def fail (e : WireError) : Reading α := fun _ => some (.error e)

/-- Checks that so many bytes are left. -/
def ensure (needed : Nat) : Reading Unit := fun bytes =>
  if bytes.length < needed then some (.error (.truncated needed bytes.length))
  else some (.ok ((), bytes))

/-- Checks a version. -/
def isVersion (v : Nat) : Reading Unit := if v = version then pure () else fail (.badVersion v)

/-- The type of a number, if there is one. -/
def known (code : Nat) : Reading PacketType :=
  match PacketType.ofCode? code with
  | some type => pure type
  | none => fail (.unsupportedType code)

/-- The byte at an index. -/
def byteAt (i : Nat) : Reading UInt8 := fun bytes =>
  match bytes[i]? with
  | some byte => some (.ok (byte, bytes))
  | none => none

/-- The bytes from one index up to another, as a slice of their own. -/
def slice (first last : Nat) : Reading (List UInt8) := fun bytes =>
  if first ≤ last ∧ last ≤ bytes.length then some (.ok ((bytes.take last).drop first, bytes))
  else none

/-- Passes over so many bytes. -/
def advance (n : Nat) : Reading Unit := fun bytes =>
  if n ≤ bytes.length then some (.ok ((), bytes.drop n)) else none

/-- Reads from another slice. -/
def inside (other : List UInt8) (part : Reading α) : Reading α := fun bytes =>
  match part other with
  | some (.ok (a, _)) => some (.ok (a, bytes))
  | some (.error e) => some (.error e)
  | none => none

/-- Takes one byte. -/
def byte : Reading UInt8 := fun
  | first :: rest => some (.ok (first, rest))
  | [] => none

/-- Takes two bytes. -/
def half : Reading UInt16 := do
  return UInt16.ofNat ((← byte).toNat * 0x100 + (← byte).toNat)

/-- Takes four bytes. -/
def word : Reading UInt32 := do
  return byteWord (← byte) (← byte) (← byte) (← byte)

/-- Repeats a part so many times. -/
def times (part : Reading α) : Nat → Reading (List α)
  | 0 => pure []
  | count + 1 => do return (← part) :: (← times part count)

/-- Repeats a part while at least so many bytes are left. A part that takes none of them would be
repeated for ever; nothing comes of that. -/
def whileLeft (least : Nat) (part : Reading α) (bytes : List UInt8) :
    Option (Except WireError (List α × List UInt8)) :=
  if bytes.length < least then some (.ok ([], bytes))
  else
    match part bytes with
    | some (.ok (a, rest)) =>
      if rest.length < bytes.length then
        (whileLeft least part rest).map (·.map fun (more, last) => (a :: more, last))
      else none
    | some (.error e) => some (.error e)
    | none => none
termination_by bytes.length

/-! ## Packets in this language -/

/-- Takes an item of a report. -/
def item : Reading ReportItem := do
  let ssrc ← word
  let lost ← word
  return {
    ssrc
    fractionLost := UInt8.ofNat (lost.toNat / 0x1000000)
    cumulativeLost := UInt32.ofNat (lost.toNat % 0x1000000)
    cycles := ← half
    maxSeq := ← half
    jitter := ← word
    lastReport := ← word
    delay := ← word }

/-- Takes an answer to a reference time. -/
def delayItem : Reading DelayItem := do
  return ⟨← word, ← word, ← word⟩

/-- What a block makes of its content, which is read from a slice of its own. -/
def content (type words : Nat) (bytes : List UInt8) : Reading (Option XrBlock) :=
  if type = XrBlock.referenceTimeType ∧ 2 ≤ words then
    inside bytes do return some (.referenceTime ⟨← word, ← word⟩)
  else if type = XrBlock.delaysType then
    inside bytes do return some (.delays (← whileLeft 12 delayItem))
  else return none

/-- Takes a block. -/
def block : Reading (Option XrBlock) := do
  let type ← byte
  advance 1
  let words ← half
  ensure (4 * words.toNat)
  let bytes ← slice 0 (4 * words.toNat)
  advance (4 * words.toNat)
  content type.toNat words.toNat bytes

/-- Takes blocks while there is room for the head of one. -/
def blocks : Reading (List XrBlock) := do
  let all : List (Option XrBlock) ← whileLeft 4 block
  return all.reduceOption

/-- Takes the body of a sender report. -/
def sender (count : Nat) : Reading Packet := do
  ensure (24 + 24 * count)
  return .sender {
    ssrc := ← word
    ntp := ⟨← word, ← word⟩
    rtpStamp := ← word
    packetCount := ← word
    octetCount := ← word
    items := ← times item count }

/-- Takes the body of a receiver report. -/
def receiver (count : Nat) : Reading Packet := do
  ensure (4 + 24 * count)
  return .receiver {
    ssrc := ← word
    items := ← times item count }

/-- Takes the body of an extended report. -/
def extended : Reading Packet := do
  ensure 4
  return .extended {
    ssrc := ← word
    blocks := ← blocks }

/-- Takes the body of a packet. -/
def body (count : Nat) : PacketType → Reading Packet
  | .sender => sender count
  | .receiver => receiver count
  | .extended => extended

/-- Reads the packet at the front of a datagram, and how many bytes it takes. -/
def packet : Reading (Packet × Nat) := do
  ensure 4
  let first ← byteAt 0
  isVersion (first.toNat / 64)
  let type ← known (← byteAt 1).toNat
  let words := (← byteAt 2).toNat * 0x100 + (← byteAt 3).toNat
  ensure (4 * (words + 1))
  let front ← slice 4 (4 * (words + 1))
  let packet ← inside front (body (first.toNat % 32) type)
  return (packet, 4 * (words + 1))

/-! ## What a part does to the bytes of some words -/

theorem bind_ok {m : Reading α} {a : α} (h : m bytes = some (.ok (a, rest))) (f : α → Reading β) :
    (m >>= f) bytes = f a rest := by
  show (match m bytes with
    | some (.ok (a, rest)) => f a rest
    | some (.error e) => some (.error e)
    | none => none) = f a rest
  rw [h]

theorem bind_error {m : Reading α} {e : WireError} (h : m bytes = some (.error e))
    (f : α → Reading β) : (m >>= f) bytes = some (.error e) := by
  show (match m bytes with
    | some (.ok (a, rest)) => f a rest
    | some (.error e) => some (.error e)
    | none => none) = some (.error e)
  rw [h]

theorem ensure_of_le {needed : Nat} (h : needed ≤ bytes.length) :
    ensure needed bytes = some (.ok ((), bytes)) :=
  if_neg (Nat.not_lt_of_le h)

theorem ensure_of_lt {needed : Nat} (h : bytes.length < needed) :
    ensure needed bytes = some (.error (.truncated needed bytes.length)) :=
  if_pos h

theorem word_append (w : UInt32) (rest : List UInt8) :
    word (wordBytes w ++ rest) = some (.ok (w, rest)) := by
  show some (Except.ok (byteWord _ _ _ _, rest)) = _
  rw [byteWord_wordBytes]

/-- The two halves of a word are taken one after the other. -/
theorem half_half (w : UInt32) (rest : List UInt8) (f : UInt16 → UInt16 → Reading α) :
    (do f (← half) (← half)) (wordBytes w ++ rest)
      = f (UInt16.ofNat (w.toNat / 0x10000)) (UInt16.ofNat (low16 w)) rest := by
  have high : UInt16.ofNat ((UInt8.ofNat (w.toNat / 0x1000000)).toNat * 0x100
      + (UInt8.ofNat (w.toNat / 0x10000)).toNat) = UInt16.ofNat (w.toNat / 0x10000) := by
    apply UInt16.toNat_inj.1
    simp only [UInt8.toNat_ofNat', UInt16.toNat_ofNat']
    omega
  have low : UInt16.ofNat ((UInt8.ofNat (w.toNat / 0x100)).toNat * 0x100
      + (UInt8.ofNat w.toNat).toNat) = UInt16.ofNat (low16 w) := by
    apply UInt16.toNat_inj.1
    simp only [low16, UInt8.toNat_ofNat', UInt16.toNat_ofNat']
    omega
  rw [← high, ← low]
  rfl

theorem item_words (ssrc lost seq jitter lastReport delay : UInt32) (rest : List UInt32) :
    item (bytesOf (ssrc :: lost :: seq :: jitter :: lastReport :: delay :: rest))
      = some (.ok ({
        ssrc
        fractionLost := UInt8.ofNat (top8 lost)
        cumulativeLost := UInt32.ofNat (lost.toNat % 0x1000000)
        cycles := UInt16.ofNat (seq.toNat / 0x10000)
        maxSeq := UInt16.ofNat (low16 seq)
        jitter, lastReport, delay }, bytesOf rest)) := by
  simp only [bytesOf_cons]
  unfold item
  rw [bind_ok (word_append ..), bind_ok (word_append ..), half_half seq _, bind_ok (word_append ..),
    bind_ok (word_append ..), bind_ok (word_append ..)]
  rfl

theorem delayItem_words (ssrc lastReference delay : UInt32) (rest : List UInt32) :
    delayItem (bytesOf (ssrc :: lastReference :: delay :: rest))
      = some (.ok (⟨ssrc, lastReference, delay⟩, bytesOf rest)) := by
  simp only [bytesOf_cons]
  unfold delayItem
  rw [bind_ok (word_append ..), bind_ok (word_append ..), bind_ok (word_append ..)]
  rfl

/-! ## Parts that are repeated -/

/-- As many items are taken as there is room for. -/
theorem times_item {count : Nat} {ws : List UInt32} (enough : 6 * count ≤ ws.length) :
    ∃ rest, times item count (bytesOf ws) = some (.ok (ReportItem.ofWords count ws, rest)) := by
  induction count generalizing ws with
  | zero =>
    have none : ReportItem.ofWords 0 ws = [] := by simp [ReportItem.ofWords]
    rw [none]
    exact ⟨_, rfl⟩
  | succ count ih =>
    obtain ⟨ssrc, lost, seq, jitter, lastReport, delay, rest, rfl⟩ :=
      exists_six (show 6 ≤ ws.length by omega)
    simp only [List.length_cons] at enough
    obtain ⟨left, later⟩ := ih (show 6 * count ≤ rest.length by omega)
    refine ⟨left, ?_⟩
    unfold times
    rw [bind_ok (item_words ..), bind_ok later]
    rfl

/-- Where there is none, a read goes past the end. -/
example : times item 1 (bytesOf [1, 2, 3, 4, 5]) = none := rfl

theorem whileLeft_of_lt {least : Nat} (part : Reading α) (h : bytes.length < least) :
    whileLeft least part bytes = some (.ok ([], bytes)) := by
  rw [whileLeft, if_pos h]

theorem whileLeft_of_error {least : Nat} {part : Reading α} {e : WireError}
    (enough : least ≤ bytes.length) (h : part bytes = some (.error e)) :
    whileLeft least part bytes = some (.error e) := by
  rw [whileLeft, if_neg (Nat.not_lt_of_le enough)]
  simp only [h]

theorem whileLeft_of_ok {least : Nat} {part : Reading α} {a : α} (enough : least ≤ bytes.length)
    (h : part bytes = some (.ok (a, rest))) (less : rest.length < bytes.length) :
    whileLeft least part bytes
      = (whileLeft least part rest).map (·.map fun (more, last) => (a :: more, last)) := by
  rw [whileLeft, if_neg (Nat.not_lt_of_le enough)]
  simp only [h, if_pos less]

/-- Answers are taken while there is room for one. -/
theorem whileLeft_delayItem (ws : List UInt32) :
    ∃ rest, whileLeft 12 delayItem (bytesOf ws) = some (.ok (DelayItem.ofWords ws, rest)) := by
  induction ws using DelayItem.ofWords.induct with
  | case1 ssrc lastReference delay rest ih =>
    obtain ⟨left, later⟩ := ih
    have enough : 12 ≤ (bytesOf (ssrc :: lastReference :: delay :: rest)).length := by
      simp only [length_bytesOf, List.length_cons]
      omega
    have less : (bytesOf rest).length
        < (bytesOf (ssrc :: lastReference :: delay :: rest)).length := by
      simp only [length_bytesOf, List.length_cons]
      omega
    refine ⟨left, ?_⟩
    rw [whileLeft_of_ok enough (delayItem_words ..) less, later]
    rfl
  | case2 ws short =>
    have few : (bytesOf ws).length < 12 := by
      rw [length_bytesOf]
      rcases ws with _ | ⟨ssrc, _ | ⟨lastReference, _ | ⟨delay, rest⟩⟩⟩
      case cons.cons.cons => exact (short ssrc lastReference delay rest rfl).elim
      all_goals
        simp only [List.length_cons, List.length_nil]
        omega
    rw [DelayItem.ofWords.eq_2 ws short]
    exact ⟨_, whileLeft_of_lt _ few⟩

/-! ## Blocks -/

theorem inside_ok {part : Reading α} {other left : List UInt8} {a : α}
    (h : part other = some (.ok (a, left))) (bytes : List UInt8) :
    inside other part bytes = some (.ok (a, bytes)) := by
  unfold inside
  rw [h]

theorem inside_error {part : Reading α} {other : List UInt8} {e : WireError}
    (h : part other = some (.error e)) (bytes : List UInt8) :
    inside other part bytes = some (.error e) := by
  unfold inside
  rw [h]

/-- A block says in its first word what it is and how many words it holds. -/
theorem block_append (head : UInt32) (rest : List UInt8) :
    block (wordBytes head ++ rest) = (do
      ensure (4 * low16 head)
      let bytes ← slice 0 (4 * low16 head)
      advance (4 * low16 head)
      content (top8 head) (low16 head) bytes : Reading (Option XrBlock)) rest := by
  have small : head.toNat < 4294967296 := head.toNat_lt
  have type : (UInt8.ofNat (head.toNat / 0x1000000)).toNat = top8 head := by
    rw [UInt8.toNat_ofNat', top8]
    omega
  have words : (UInt16.ofNat ((UInt8.ofNat (head.toNat / 0x100)).toNat * 0x100
      + (UInt8.ofNat head.toNat).toNat)).toNat = low16 head := by
    simp only [low16, UInt8.toNat_ofNat', UInt16.toNat_ofNat']
    omega
  rw [← type, ← words]
  rfl

theorem content_words (type : Nat) (ws : List UInt32) (bytes : List UInt8) :
    content type ws.length (bytesOf ws) bytes = some (.ok (XrBlock.ofBody? type ws, bytes)) := by
  have apart : XrBlock.referenceTimeType ≠ XrBlock.delaysType := by decide
  unfold content XrBlock.ofBody?
  by_cases isTime : type = XrBlock.referenceTimeType
  · subst isTime
    rw [if_pos rfl, if_neg apart]
    rcases ws with _ | ⟨seconds, _ | ⟨fraction, rest⟩⟩
    · rfl
    · rfl
    · have enough : 2 ≤ (seconds :: fraction :: rest).length := by
        simp only [List.length_cons]
        omega
      rw [if_pos ⟨rfl, enough⟩, bytesOf_cons, bytesOf_cons]
      apply inside_ok
      rw [bind_ok (word_append ..), bind_ok (word_append ..)]
      rfl
  · rw [if_neg (fun both => isTime both.1), if_neg isTime]
    by_cases isDelays : type = XrBlock.delaysType
    · obtain ⟨left, all⟩ := whileLeft_delayItem ws
      rw [if_pos isDelays, if_pos isDelays]
      apply inside_ok
      rw [bind_ok all]
      rfl
    · rw [if_neg isDelays, if_neg isDelays]
      rfl

/-- A block is taken if the words that its head counts are there. -/
theorem block_words {head : UInt32} {ws : List UInt32} (inside : low16 head ≤ ws.length) :
    block (bytesOf (head :: ws)) = some (.ok (XrBlock.ofBody? (top8 head) (ws.take (low16 head)),
      bytesOf (ws.drop (low16 head)))) := by
  have enough : 4 * low16 head ≤ (bytesOf ws).length := by
    rw [length_bytesOf]
    omega
  have cut : slice 0 (4 * low16 head) (bytesOf ws)
      = some (.ok (bytesOf (ws.take (low16 head)), bytesOf ws)) := by
    rw [← take_bytesOf]
    exact if_pos ⟨Nat.zero_le _, enough⟩
  have pass : advance (4 * low16 head) (bytesOf ws)
      = some (.ok ((), bytesOf (ws.drop (low16 head)))) := by
    rw [← drop_bytesOf]
    exact if_pos enough
  have made := content_words (top8 head) (ws.take (low16 head)) (bytesOf (ws.drop (low16 head)))
  rw [List.length_take_of_le inside] at made
  rw [bytesOf_cons, block_append, bind_ok (ensure_of_le enough), bind_ok cut, bind_ok pass, made]

/-- Otherwise the check fails. -/
theorem block_words_error {head : UInt32} {ws : List UInt32} (outside : ws.length < low16 head) :
    block (bytesOf (head :: ws)) = some (.error (.truncated (4 * low16 head) (4 * ws.length))) := by
  have few : (bytesOf ws).length < 4 * low16 head := by
    rw [length_bytesOf]
    omega
  rw [bytesOf_cons, block_append, bind_error (ensure_of_lt few), length_bytesOf]

/-- Blocks are taken until none is left, or until one that is not all there. -/
theorem whileLeft_block (ws : List UInt32) :
    ∃ all : Except WireError (List (Option XrBlock)),
      whileLeft 4 block (bytesOf ws) = some (all.map (·, [])) ∧
      all.map List.reduceOption = XrBlock.ofWords ws := by
  -- the induction is on the words that are left
  induction left : ws.length using Nat.strongRecOn generalizing ws with
  | ind length ih =>
    cases ws with
    | nil =>
      refine ⟨.ok [], whileLeft_of_lt block (by decide), ?_⟩
      rw [XrBlock.ofWords]
      rfl
    | cons head rest =>
      simp only [List.length_cons] at left
      have enough : 4 ≤ (bytesOf (head :: rest)).length := by
        rw [length_bytesOf, List.length_cons]
        omega
      by_cases inside : low16 head ≤ rest.length
      · have shorter : (rest.drop (low16 head)).length < length := by
          rw [List.length_drop]
          omega
        have less :
            (bytesOf (rest.drop (low16 head))).length < (bytesOf (head :: rest)).length := by
          simp only [length_bytesOf, List.length_cons]
          omega
        obtain ⟨later, taken, same⟩ := ih _ shorter _ rfl
        refine ⟨later.map (XrBlock.ofBody? (top8 head) (rest.take (low16 head)) :: ·), ?_, ?_⟩
        · rw [whileLeft_of_ok enough (block_words inside) less, taken]
          cases later <;> rfl
        · rw [XrBlock.ofWords_of_le inside, ← same]
          cases later with
          | error e => rfl
          | ok more => cases XrBlock.ofBody? (top8 head) (rest.take (low16 head)) <;> rfl
      · have outside : rest.length < low16 head := Nat.lt_of_not_le inside
        refine ⟨.error (.truncated (4 * low16 head) (4 * rest.length)), ?_, ?_⟩
        · rw [whileLeft_of_error enough (block_words_error outside)]
          rfl
        · rw [XrBlock.ofWords_of_lt outside]
          rfl

theorem blocks_words (ws : List UInt32) :
    blocks (bytesOf ws) = some ((XrBlock.ofWords ws).map (·, [])) := by
  obtain ⟨all, taken, same⟩ := whileLeft_block ws
  rw [← same]
  unfold blocks
  cases all with
  | error e =>
    rw [bind_error taken]
    rfl
  | ok found =>
    rw [bind_ok taken]
    rfl

/-! ## Bodies and packets -/

theorem sender_words (count : Nat) (ws : List UInt32) :
    ∃ left, sender count (bytesOf ws)
      = some ((Packet.senderOfBody count ws).map (·, left)) := by
  unfold sender
  by_cases few : ws.length < 6 + 6 * count
  · have short : (bytesOf ws).length < 24 + 24 * count := by
      rw [length_bytesOf]
      omega
    refine ⟨[], ?_⟩
    rw [Packet.senderOfBody_of_lt few, bind_error (ensure_of_lt short), length_bytesOf]
    rfl
  · have enough : 24 + 24 * count ≤ (bytesOf ws).length := by
      rw [length_bytesOf]
      omega
    obtain ⟨ssrc, seconds, fraction, stamp, packets, octets, ws, rfl⟩ :=
      exists_six (show 6 ≤ ws.length by omega)
    simp only [List.length_cons] at few
    have room : 6 * count ≤ ws.length := by omega
    have made := Packet.senderOfBody_eq_ok_iff.2
      ⟨ssrc, seconds, fraction, stamp, packets, octets, ws, rfl, room, rfl⟩
    obtain ⟨left, items⟩ := times_item room
    refine ⟨left, ?_⟩
    rw [made, bind_ok (ensure_of_le enough)]
    simp only [bytesOf_cons]
    rw [bind_ok (word_append ..), bind_ok (word_append ..), bind_ok (word_append ..),
      bind_ok (word_append ..), bind_ok (word_append ..), bind_ok (word_append ..), bind_ok items]
    rfl

theorem receiver_words (count : Nat) (ws : List UInt32) :
    ∃ left, receiver count (bytesOf ws)
      = some ((Packet.receiverOfBody count ws).map (·, left)) := by
  unfold receiver
  by_cases few : ws.length < 1 + 6 * count
  · have short : (bytesOf ws).length < 4 + 24 * count := by
      rw [length_bytesOf]
      omega
    refine ⟨[], ?_⟩
    rw [Packet.receiverOfBody_of_lt few, bind_error (ensure_of_lt short), length_bytesOf]
    rfl
  · have enough : 4 + 24 * count ≤ (bytesOf ws).length := by
      rw [length_bytesOf]
      omega
    cases ws with
    | nil =>
      simp only [List.length_nil] at few
      omega
    | cons ssrc ws =>
      simp only [List.length_cons] at few
      have room : 6 * count ≤ ws.length := by omega
      have made := Packet.receiverOfBody_eq_ok_iff.2 ⟨ssrc, ws, rfl, room, rfl⟩
      obtain ⟨left, items⟩ := times_item room
      refine ⟨left, ?_⟩
      rw [made, bind_ok (ensure_of_le enough), bytesOf_cons, bind_ok (word_append ..),
        bind_ok items]
      rfl

theorem extended_words (ws : List UInt32) :
    ∃ left, extended (bytesOf ws) = some ((Packet.extendedOfBody ws).map (·, left)) := by
  refine ⟨[], ?_⟩
  unfold extended Packet.extendedOfBody
  cases ws with
  | nil => rfl
  | cons ssrc ws =>
    have enough : 4 ≤ (bytesOf (ssrc :: ws)).length := by
      rw [length_bytesOf, List.length_cons]
      omega
    have taken := blocks_words ws
    rw [bind_ok (ensure_of_le enough), bytesOf_cons, bind_ok (word_append ..)]
    cases made : XrBlock.ofWords ws with
    | error e =>
      rw [made] at taken
      rw [bind_error taken]
      simp only [made]
      rfl
    | ok found =>
      rw [made] at taken
      rw [bind_ok taken]
      simp only [made]
      rfl

/-- The body of a packet is taken as it is read from its words. -/
theorem body_words (count : Nat) (type : PacketType) (ws : List UInt32) :
    ∃ left, body count type (bytesOf ws) = some ((Packet.ofBody type count ws).map (·, left)) := by
  cases type with
  | sender => exact sender_words count ws
  | receiver => exact receiver_words count ws
  | extended => exact extended_words ws

theorem byteAt_of_lt {i : Nat} (h : i < bytes.length) :
    byteAt i bytes = some (.ok (bytes.getD i 0, bytes)) := by
  unfold byteAt
  rw [List.getD_eq_getElem?_getD, List.getElem?_eq_getElem h]
  rfl

theorem isVersion_ok {v : Nat} (h : v = version) :
    isVersion v bytes = some (.ok ((), bytes)) := by
  unfold isVersion
  rw [if_pos h]
  rfl

theorem isVersion_error {v : Nat} (h : v ≠ version) :
    isVersion v bytes = some (.error (.badVersion v)) := by
  unfold isVersion
  rw [if_neg h]
  rfl

theorem known_ok {code : Nat} {type : PacketType} (h : PacketType.ofCode? code = some type) :
    known code bytes = some (.ok (type, bytes)) := by
  unfold known
  rw [h]
  rfl

theorem known_error {code : Nat} (h : PacketType.ofCode? code = none) :
    known code bytes = some (.error (.unsupportedType code)) := by
  unfold known
  rw [h]
  rfl

/-- **No read goes past the end of its slice.** Reading a packet byte by byte always has an outcome:
the packet and its length, or the error of a check, as `Packet.parse` says. -/
theorem packet_eq (data : List UInt8) : packet data = some ((Packet.parse data).map (·, data)) := by
  unfold packet
  by_cases short : data.length < 4
  · rw [bind_error (ensure_of_lt short), Packet.parse_of_short short]
    rfl
  have there : 4 ≤ data.length := Nat.le_of_not_lt short
  rw [bind_ok (ensure_of_le there), bind_ok (byteAt_of_lt (by omega))]
  by_cases two : (data.getD 0 0).toNat / 64 = version
  swap
  · rw [bind_error (isVersion_error two), Packet.parse_of_version there two]
    rfl
  rw [bind_ok (isVersion_ok two), bind_ok (byteAt_of_lt (by omega))]
  cases isType : PacketType.ofCode? (data.getD 1 0).toNat with
  | none =>
    rw [bind_error (known_error isType), Packet.parse_of_type there two isType]
    rfl
  | some type =>
    rw [bind_ok (known_ok isType), bind_ok (byteAt_of_lt (by omega)),
      bind_ok (byteAt_of_lt (by omega))]
    show (do
      ensure (Packet.totalAt data)
      let front ← slice 4 (Packet.totalAt data)
      let packet ← inside front (body (Packet.itemsAt data) type)
      return (packet, Packet.totalAt data)) data = _
    by_cases few : data.length < Packet.totalAt data
    · rw [bind_error (ensure_of_lt few), Packet.parse_of_total there two isType few]
      rfl
    have enough : Packet.totalAt data ≤ data.length := Nat.le_of_not_lt few
    have least : 4 ≤ Packet.totalAt data := Nat.le_mul_of_pos_right 4 (Nat.succ_pos _)
    have cut : slice 4 (Packet.totalAt data) data = some (.ok (Packet.bodyAt data, data)) :=
      if_pos ⟨least, enough⟩
    -- the slice behind the head holds whole words
    have whole : bytesOf (wordsOf (Packet.bodyAt data)) = Packet.bodyAt data := by
      apply bytesOf_wordsOf
      rw [Packet.length_bodyAt enough]
      exact Nat.dvd_mul_right ..
    obtain ⟨left, read⟩ := body_words (Packet.itemsAt data) type (wordsOf (Packet.bodyAt data))
    rw [whole] at read
    rw [bind_ok (ensure_of_le enough), bind_ok cut, Packet.parse_of_body there two isType enough]
    cases made : Packet.ofBody type (Packet.itemsAt data) (wordsOf (Packet.bodyAt data)) with
    | error e =>
      rw [made] at read
      rw [bind_error (inside_error read data)]
      rfl
    | ok p =>
      rw [made] at read
      rw [bind_ok (inside_ok read data)]
      rfl

end Reading

end CastHub.Rtcp
