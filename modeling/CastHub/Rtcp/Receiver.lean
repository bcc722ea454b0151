import CastHub.Rtcp.Counters
import CastHub.Rtcp.Packet
/-!
# The receiving end of a stream

A receiver follows the sequence numbers of a stream through their 16-bit wraps, and from the range
seen so far knows how many packets to expect; what is missing of them is lost. It also smooths the
jitter of arrival.

A number below 255 after a maximum above 65280 is a wrap, unless a wrap was counted less than 8192
packets before: then it is a straggler. Until the first wrap a smaller number moves the beginning of
the range down.
-/

namespace CastHub.Rtcp

/-- The state of the receiving end. -/
structure Receiver where
  counters : Counters := {}
  /-- The beginning of the range of sequence numbers. -/
  base : Option UInt16 := none
  maxSeq : UInt16 := 0
  cycles : UInt16 := 0
  /-- How many packets had come when the last wrap was counted; zero before the first. -/
  lastWrap : Nat := 0
  jitter : Float := 0
  /-- When the latest packet arrived. -/
  lastArrival : Option UInt64 := none
  /-- Compact time of the latest sender report; zero if there was none. -/
  lastReport : UInt32 := 0
  /-- When that report arrived. -/
  lastReportMs : UInt64 := 0
  /-- Expected packets at the latest look at the interval. -/
  lastExpected : Nat := 0
  /-- Lost packets at the latest look at the interval. -/
  lastLost : Nat := 0

namespace Receiver

/-- The sequence numbers above which a wrap may come. -/
def wrapHigh : UInt16 := 0xFF00

/-- The sequence numbers below which a wrap may have come. -/
def wrapLow : UInt16 := 0xFF

/-- More packets than this lie between two wraps. -/
def wrapDistance : Nat := 0x1FFF

/-- The jitter after a packet. The first packet sets it to zero; every other one moves it by a
sixteenth of the way towards the difference between time passed and stamps passed. -/
def jitterAfter (r : Receiver) (p : MediaPacket) (now : UInt64) : Float :=
  match r.lastArrival with
  | none => 0
  | some last =>
    let arrival := (now.toFloat - last.toFloat) * (p.rate.toUInt64.toFloat / 1000)
    let transit := p.stamp.toUInt64.toFloat - r.counters.lastStamp.toUInt64.toFloat
    let d := (arrival - transit).abs
    r.jitter + (d - r.jitter) / 16

/-- Whether a sequence number begins a new cycle. -/
def wraps (r : Receiver) (seq : UInt16) : Bool :=
  wrapHigh < r.maxSeq && seq < wrapLow
    && (r.lastWrap == 0 || wrapDistance < r.counters.packets - r.lastWrap)

/-- Follows the maximum and the cycles. -/
def trackMax (r : Receiver) (seq : UInt16) : Receiver :=
  if r.wraps seq then
    { r with cycles := r.cycles + 1, lastWrap := r.counters.packets, maxSeq := seq }
  else if r.maxSeq < seq then { r with maxSeq := seq }
  else r

/-- Follows the beginning of the range. -/
def trackBase (r : Receiver) (seq : UInt16) : Receiver :=
  match r.base with
  | none => { r with base := some seq }
  | some base => if r.cycles = 0 ∧ seq < base then { r with base := some seq } else r

/-- Accounts for a packet that has arrived. -/
def onMedia (r : Receiver) (p : MediaPacket) (now : UInt64) : Receiver :=
  let r := { r with jitter := r.jitterAfter p now, lastArrival := some now }
  let r := (r.trackMax p.seq).trackBase p.seq
  { r with counters := r.counters.count p }

/-- Takes up a control packet: the latest sender report will be echoed. -/
def onPacket (r : Receiver) (p : Packet) (now : UInt64) : Receiver :=
  match p with
  | .sender s => { r with lastReport := s.ntp.compact, lastReportMs := now }
  | _ => r

/-- The latest sequence number with its cycles. -/
def extendedMax (r : Receiver) : Nat := r.cycles.toNat * 0x10000 + r.maxSeq.toNat

/-- How many packets the range seen so far should hold. -/
def expected (r : Receiver) : Nat :=
  match r.base with
  | none => 0
  | some base => r.extendedMax + 1 - base.toNat

/-- How many packets are missing; repeated ones make up for missing ones. -/
def lost (r : Receiver) : Nat := r.expected - r.counters.packets

/-- Expected packets since the last look, and the state after this one. -/
def expectedInterval (r : Receiver) : Nat × Receiver :=
  (r.expected - r.lastExpected, { r with lastExpected := r.expected })

/-- Lost packets since the last look, and the state after this one. -/
def lostInterval (r : Receiver) : Nat × Receiver :=
  (r.lost - r.lastLost, { r with lastLost := r.lost })

/-- The part of `expected` packets that is lost, in 256ths, at most 255. -/
def fractionLost (lost expected : Nat) : UInt8 :=
  if expected = 0 then 0 else UInt8.ofNat (min (lost * 0x100 / expected) 255)

/-- The delay since the latest sender report. -/
def delaySinceReport (r : Receiver) (now : UInt64) : UInt32 :=
  if r.lastReport = 0 then 0 else delayOfMs (now.toNat - r.lastReportMs.toNat)

/-- Makes a report on the stream `stream`. -/
def report (r : Receiver) (ssrc stream : UInt32) (now : UInt64) : ReceiverReport × Receiver :=
  let (expected, r) := r.expectedInterval
  let (lost, r) := r.lostInterval
  let item : ReportItem :=
    { ssrc := stream
      fractionLost := fractionLost lost expected
      cumulativeLost := UInt32.ofNat (min r.lost 0xFFFFFF)
      cycles := r.cycles
      maxSeq := r.maxSeq
      jitter := r.jitter.toUInt32
      lastReport := r.lastReport
      delay := r.delaySinceReport now }
  (⟨ssrc, [item]⟩, r)

/-- Makes a report of the receiver's own time. -/
def referenceReport (ssrc : UInt32) (now : UInt64) : ExtendedReport :=
  ⟨ssrc, [.referenceTime (Ntp.ofUnixMs now)]⟩

end Receiver

end CastHub.Rtcp
