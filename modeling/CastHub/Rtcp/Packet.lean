import CastHub.Rtcp.Ntp
/-!
# Control packets

The three packets that the two ends of a media stream exchange about it: sender reports, receiver
reports, and extended reports made of blocks.
-/

namespace CastHub.Rtcp

/-- What a receiver reports about one stream. -/
structure ReportItem where
  ssrc : UInt32 := 0
  /-- The part of packets lost since the last report, in 256ths. -/
  fractionLost : UInt8 := 0
  /-- Packets lost in all; the lowest 24 bits travel. -/
  cumulativeLost : UInt32 := 0
  cycles : UInt16 := 0
  maxSeq : UInt16 := 0
  jitter : UInt32 := 0
  /-- Compact time of the last sender report seen; zero if there was none. -/
  lastReport : UInt32 := 0
  /-- Delay since that report. -/
  delay : UInt32 := 0
deriving Repr, DecidableEq

/-- What a sender reports about its stream. -/
structure SenderReport where
  ssrc : UInt32
  ntp : Ntp
  rtpStamp : UInt32
  packetCount : UInt32
  octetCount : UInt32
  items : List ReportItem
deriving Repr, DecidableEq

/-- What a receiver reports about the streams it hears. -/
structure ReceiverReport where
  ssrc : UInt32
  items : List ReportItem
deriving Repr, DecidableEq

/-- An answer to one receiver's reference time. -/
structure DelayItem where
  ssrc : UInt32
  lastReference : UInt32
  delay : UInt32
deriving Repr, DecidableEq

/-- A block of an extended report. -/
inductive XrBlock where
  /-- A receiver's reference time. -/
  | referenceTime (ntp : Ntp)
  /-- Answers to reference times. -/
  | delays (items : List DelayItem)
deriving Repr, DecidableEq

/-- An extended report. -/
structure ExtendedReport where
  ssrc : UInt32
  blocks : List XrBlock
deriving Repr, DecidableEq

/-- A control packet. -/
inductive Packet where
  | sender (r : SenderReport)
  | receiver (r : ReceiverReport)
  | extended (r : ExtendedReport)
deriving Repr, DecidableEq

/-- The kinds of control packets. -/
inductive PacketType where
  | sender
  | receiver
  | extended
deriving Repr, DecidableEq

namespace PacketType

/-- The number of a kind on the wire. -/
def code : PacketType → Nat
  | sender => 200
  | receiver => 201
  | extended => 207

/-- The kind with a given number. -/
def ofCode? (code : Nat) : Option PacketType :=
  [sender, receiver, extended].find? (·.code == code)

end PacketType

/-- The kind of a packet. -/
def Packet.type : Packet → PacketType
  | sender _ => .sender
  | receiver _ => .receiver
  | extended _ => .extended

/-- Why bytes are no packet, or a packet has no bytes. -/
inductive WireError where
  | truncated (needed available : Nat)
  | badVersion (version : Nat)
  | unsupportedType (code : Nat)
  | tooManyItems (count : Nat)
deriving Repr, DecidableEq

namespace WireError

/-- The sentence shown to people. -/
def message : WireError → String
  | truncated needed available =>
    "Packet truncated: need " ++ toString needed ++ " bytes, have " ++ toString available
  | badVersion version => "Unsupported RTCP version: " ++ toString version
  | unsupportedType code => "Unsupported RTCP packet type: " ++ toString code
  | tooManyItems count => "Too many report items: " ++ toString count

end WireError

end CastHub.Rtcp
