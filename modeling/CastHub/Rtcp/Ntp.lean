/-!
# Network time

A network timestamp counts seconds since 1900 in its upper word and fractions of a second, in units
of `2 ^ -32` s, in its lower word. Reports echo the middle 32 bits of it (`Ntp.compact`) and measure
delays in units of `2 ^ -16` s.
-/

namespace CastHub.Rtcp

/-- A network timestamp. -/
structure Ntp where
  seconds : UInt32
  fraction : UInt32
deriving Repr, DecidableEq

/-- Seconds between the start of network time and the start of Unix time. -/
def unixOffset : Nat := 0x83AA7E80

namespace Ntp

/-- The timestamp of a Unix time in milliseconds. Seconds are counted modulo `2 ^ 32`, and the
fraction is cut off. -/
def ofUnixMs (ms : UInt64) : Ntp :=
  { seconds := UInt32.ofNat (ms.toNat / 1000 + unixOffset)
    fraction := UInt32.ofNat (ms.toNat % 1000 * 0x100000000 / 1000) }

/-- The Unix time of a timestamp, in milliseconds, rounded to nearest; zero for the seconds before
1970. -/
def toUnixMs (t : Ntp) : Nat :=
  (t.seconds.toNat - unixOffset) * 1000 + (t.fraction.toNat * 1000 + 0x80000000) / 0x100000000

/-- The middle 32 bits. -/
def compact (t : Ntp) : UInt32 :=
  UInt32.ofNat (t.seconds.toNat % 0x10000 * 0x10000 + t.fraction.toNat / 0x10000)

end Ntp

/-- A delay in milliseconds as a report carries it; delays of eighteen hours and more wrap. The
product is exact here: delays from `2 ^ 48` milliseconds on, whose product does not fit into 64
bits, are not thought of. -/
def delayOfMs (ms : Nat) : UInt32 := UInt32.ofNat (ms * 65536 / 1000)

/-- A delay from a report in whole milliseconds. -/
def msOfDelay (delay : UInt32) : Nat := delay.toNat * 1000 / 65536

end CastHub.Rtcp
