import CastHub.Rtcp.Packet
/-!
# Control packets on the wire

A packet is a sequence of 32-bit words in network byte order. Its first word holds the version, a
count, the packet type and the number of words that follow; in an extended report each block starts
with a word of the same make.

* `Packet.encode` : the bytes of a packet. A report has room for 31 items.
* `Packet.parse` : the packet at the front of some bytes and how many bytes it takes.
* `Packet.parseCompound` : all packets of a datagram.

Whatever a packet's length field counts beyond its items, and every extended block of another type,
is passed over.
-/

namespace CastHub.Rtcp

/-- The four bytes of a word, highest first. -/
def wordBytes (w : UInt32) : List UInt8 :=
  [UInt8.ofNat (w.toNat / 0x1000000), UInt8.ofNat (w.toNat / 0x10000),
    UInt8.ofNat (w.toNat / 0x100), UInt8.ofNat w.toNat]

/-- The word made of four bytes, highest first. -/
def byteWord (a b c d : UInt8) : UInt32 :=
  UInt32.ofNat (((a.toNat * 256 + b.toNat) * 256 + c.toNat) * 256 + d.toNat)

/-- The bytes of some words. -/
def bytesOf (words : List UInt32) : List UInt8 := words.flatMap wordBytes

/-- The words made of some bytes; up to three bytes at the end make none. -/
def wordsOf : List UInt8 → List UInt32
  | a :: b :: c :: d :: rest => byteWord a b c d :: wordsOf rest
  | _ => []

/-- The word with a byte on top and 24 bits below. -/
def join8 (high : UInt8) (low : UInt32) : UInt32 :=
  UInt32.ofNat (high.toNat * 0x1000000 + low.toNat % 0x1000000)

/-- The word with 16 bits on top and 16 below. -/
def join16 (high low : UInt16) : UInt32 := UInt32.ofNat (high.toNat * 0x10000 + low.toNat)

/-- The top byte of a word. -/
def top8 (w : UInt32) : Nat := w.toNat / 0x1000000

/-- The low half of a word. -/
def low16 (w : UInt32) : Nat := w.toNat % 0x10000

namespace ReportItem

/-- An item's six words. -/
def words (item : ReportItem) : List UInt32 :=
  [item.ssrc, join8 item.fractionLost item.cumulativeLost, join16 item.cycles item.maxSeq,
    item.jitter, item.lastReport, item.delay]

/-- The first `count` items in some words. -/
def ofWords : Nat → List UInt32 → List ReportItem
  | count + 1, ssrc :: lost :: seq :: jitter :: lastReport :: delay :: rest =>
    { ssrc
      fractionLost := UInt8.ofNat (top8 lost)
      cumulativeLost := UInt32.ofNat (lost.toNat % 0x1000000)
      cycles := UInt16.ofNat (seq.toNat / 0x10000)
      maxSeq := UInt16.ofNat (low16 seq)
      jitter, lastReport, delay } :: ofWords count rest
  | _, _ => []

end ReportItem

namespace DelayItem

/-- An item's three words. -/
def words (item : DelayItem) : List UInt32 := [item.ssrc, item.lastReference, item.delay]

/-- The items in some words; up to two words at the end make none. -/
def ofWords : List UInt32 → List DelayItem
  | ssrc :: lastReference :: delay :: rest => ⟨ssrc, lastReference, delay⟩ :: ofWords rest
  | _ => []

end DelayItem

/-- The first word of a packet or block: two bytes, and how many words follow (in 16 bits). -/
def headWord (first second length : Nat) : UInt32 :=
  UInt32.ofNat (first % 0x100 * 0x1000000 + second % 0x100 * 0x10000 + length % 0x10000)

/-- The version that every packet carries in its two highest bits. -/
def version : Nat := 2

/-- The most items that a report has room for. -/
def maxItems : Nat := 31

namespace XrBlock

/-- The type of a reference time block. -/
def referenceTimeType : Nat := 4

/-- The type of a block of delays. -/
def delaysType : Nat := 5

/-- The words of a block after its first. -/
def body : XrBlock → List UInt32
  | referenceTime ntp => [ntp.seconds, ntp.fraction]
  | delays items => items.flatMap DelayItem.words

/-- The type of a block. -/
def type : XrBlock → Nat
  | referenceTime _ => referenceTimeType
  | delays _ => delaysType

/-- The words of a block: type, a byte of zero, length, body. -/
def words (block : XrBlock) : List UInt32 :=
  headWord block.type 0 block.body.length :: block.body

/-- The block of a given type and body, unless it is to be passed over. -/
def ofBody? (type : Nat) (body : List UInt32) : Option XrBlock :=
  if type = referenceTimeType then
    match body with
    | seconds :: fraction :: _ => some (referenceTime ⟨seconds, fraction⟩)
    | _ => none
  else if type = delaysType then some (delays (DelayItem.ofWords body))
  else none

/-- The blocks in some words; each must lie inside them. -/
def ofWords (words : List UInt32) : Except WireError (List XrBlock) :=
  match words with
  | [] => .ok []
  | head :: rest =>
    let length := low16 head
    let body := rest.take length
    if body.length < length then .error (.truncated (4 * length) (4 * rest.length))
    else
      match ofWords (rest.drop length) with
      | .error e => .error e
      | .ok blocks => .ok ((ofBody? (top8 head) body).toList ++ blocks)
termination_by words.length
decreasing_by simp only [List.length_cons, List.length_drop]; omega

end XrBlock

namespace Packet

/-- The words of a packet after its first. -/
def body : Packet → List UInt32
  | sender r =>
    [r.ssrc, r.ntp.seconds, r.ntp.fraction, r.rtpStamp, r.packetCount, r.octetCount]
      ++ r.items.flatMap ReportItem.words
  | receiver r => r.ssrc :: r.items.flatMap ReportItem.words
  | extended r => r.ssrc :: r.blocks.flatMap XrBlock.words

/-- The number of items that a packet's head counts. -/
def itemCount : Packet → Nat
  | sender r => r.items.length
  | receiver r => r.items.length
  | extended _ => 0

/-- The words of a packet. -/
def words (p : Packet) : List UInt32 :=
  headWord (version * 64 + p.itemCount % 32) p.type.code p.body.length :: p.body

/-- The bytes of a packet. -/
def encode (p : Packet) : Except WireError (List UInt8) :=
  if maxItems < p.itemCount then .error (.tooManyItems p.itemCount) else .ok (bytesOf p.words)

/-- A sender report from its body. -/
def senderOfBody (count : Nat) (body : List UInt32) : Except WireError Packet :=
  if body.length < 6 + 6 * count then
    .error (.truncated (4 * (6 + 6 * count)) (4 * body.length))
  else
    match body with
    | ssrc :: seconds :: fraction :: rtpStamp :: packetCount :: octetCount :: rest =>
      .ok (.sender ⟨ssrc, ⟨seconds, fraction⟩, rtpStamp, packetCount, octetCount,
        ReportItem.ofWords count rest⟩)
    | _ => .error (.truncated (4 * (6 + 6 * count)) (4 * body.length))

/-- A receiver report from its body. -/
def receiverOfBody (count : Nat) (body : List UInt32) : Except WireError Packet :=
  if body.length < 1 + 6 * count then
    .error (.truncated (4 * (1 + 6 * count)) (4 * body.length))
  else
    match body with
    | ssrc :: rest => .ok (.receiver ⟨ssrc, ReportItem.ofWords count rest⟩)
    | _ => .error (.truncated (4 * (1 + 6 * count)) (4 * body.length))

/-- An extended report from its body. -/
def extendedOfBody (body : List UInt32) : Except WireError Packet :=
  match body with
  | [] => .error (.truncated 4 0)
  | ssrc :: rest => (XrBlock.ofWords rest).map fun blocks => .extended ⟨ssrc, blocks⟩

/-- A packet of a given kind from its body. -/
def ofBody (type : PacketType) (count : Nat) (body : List UInt32) : Except WireError Packet :=
  match type with
  | .sender => senderOfBody count body
  | .receiver => receiverOfBody count body
  | .extended => extendedOfBody body

/-- The packet at the front of some bytes, and how many bytes it takes. -/
def parse (data : List UInt8) : Except WireError (Packet × Nat) :=
  match data with
  | first :: second :: third :: fourth :: rest =>
    if first.toNat / 64 ≠ version then .error (.badVersion (first.toNat / 64))
    else
      match PacketType.ofCode? second.toNat with
      | none => .error (.unsupportedType second.toNat)
      | some type =>
        let length := 4 * (third.toNat * 0x100 + fourth.toNat)
        let body := rest.take length
        if body.length < length then .error (.truncated (length + 4) data.length)
        else
          (ofBody type (first.toNat % 32) (wordsOf body)).map (·, length + 4)
  | _ => .error (.truncated 4 data.length)

/-- All packets of a datagram. -/
def parseCompound (data : List UInt8) : Except WireError (List Packet) :=
  match data with
  | [] => .ok []
  | byte :: rest =>
    match parse (byte :: rest) with
    | .error e => .error e
    | .ok (packet, used) =>
      match parseCompound (rest.drop (used - 1)) with
      | .error e => .error e
      | .ok packets => .ok (packet :: packets)
termination_by data.length
decreasing_by simp only [List.length_cons, List.length_drop]; omega

end Packet

end CastHub.Rtcp
