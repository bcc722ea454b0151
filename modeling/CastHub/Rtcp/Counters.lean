/-!
# Counting a media stream

What both ends of a stream keep of the media packets that pass: how many, how many bytes, and the
stamps of the latest one.
-/

namespace CastHub.Rtcp

/-- A media packet, as far as statistics look at it. -/
structure MediaPacket where
  seq : UInt16
  stamp : UInt32
  /-- When the packet was sampled, in Unix milliseconds. -/
  ntpMs : UInt64
  /-- Ticks of `stamp` per second. -/
  rate : UInt32
  bytes : Nat
deriving Repr

/-- Totals of a stream and the stamps of its latest packet. The totals are exact: a stream of `2 ^
64` packets or bytes is not thought of. -/
structure Counters where
  packets : Nat := 0
  bytes : Nat := 0
  lastStamp : UInt32 := 0
  lastNtpMs : UInt64 := 0
deriving Repr, DecidableEq

/-- Counts a packet. -/
def Counters.count (c : Counters) (p : MediaPacket) : Counters :=
  { packets := c.packets + 1
    bytes := c.bytes + p.bytes
    lastStamp := p.stamp
    lastNtpMs := p.ntpMs }

end CastHub.Rtcp
