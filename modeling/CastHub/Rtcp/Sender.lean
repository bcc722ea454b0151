import CastHub.Rtcp.Counters
import CastHub.Rtcp.Packet
import CastHub.Table
/-!
# The sending end of a stream

A sender reports its totals and remembers when it sent its latest five reports. A receiver's report
echoes the compact time of a sender report and the delay since it arrived; the rest of the time
since that report was sent is the round-trip time.

All operations that look at a clock take the time as an argument, in milliseconds.
-/

namespace CastHub.Rtcp

/-- A report that was sent: its compact time, and when it was sent. -/
structure SentReport where
  stamp : UInt32
  sentMs : UInt64
deriving Repr, DecidableEq

/-- The state of the sending end. -/
structure Sender where
  counters : Counters := {}
  /-- The latest reports, oldest first, each compact time once. -/
  reports : List SentReport := []
  /-- Round-trip times in milliseconds, by receiver. -/
  roundTrips : Table UInt32 UInt32 := []
  /-- Compact reference time and arrival time of each receiver's latest reference time block. -/
  references : Table UInt32 (UInt32 × UInt64) := []

namespace Sender

/-- How many reports are remembered. -/
def historyLength : Nat := 5

/-- Accounts for a packet that was sent. -/
def onMedia (s : Sender) (p : MediaPacket) : Sender := { s with counters := s.counters.count p }

/-- Remembers a report; an older one of the same compact time is forgotten, and so are the oldest if
there are too many. -/
def remember (reports : List SentReport) (r : SentReport) : List SentReport :=
  let all := reports.filter (·.stamp ≠ r.stamp) ++ [r]
  all.drop (all.length - historyLength)

/-- Makes a sender report. -/
def report (s : Sender) (ssrc : UInt32) (now : UInt64) : SenderReport × Sender :=
  let ntp := Ntp.ofUnixMs s.counters.lastNtpMs
  ({ ssrc, ntp
     rtpStamp := s.counters.lastStamp
     packetCount := UInt32.ofNat s.counters.packets
     octetCount := UInt32.ofNat s.counters.bytes
     items := [] },
   { s with reports := remember s.reports ⟨ntp.compact, now⟩ })

/-- When the report with a given compact time was sent. -/
def sentAt? (s : Sender) (stamp : UInt32) : Option UInt64 :=
  (s.reports.find? (·.stamp = stamp)).map (·.sentMs)

/-- The round-trip time that an item shows, at most `2 ^ 32 - 1`: none if it echoes no remembered
report or its delay exceeds the time since that report. -/
def roundTrip? (s : Sender) (item : ReportItem) (now : UInt64) : Option UInt32 :=
  if item.lastReport = 0 then none
  else
    (s.sentAt? item.lastReport).bind fun sentMs =>
      let elapsed := now.toNat - sentMs.toNat
      let delay := msOfDelay item.delay
      if delay ≤ elapsed then some (UInt32.ofNat (min (elapsed - delay) 0xFFFFFFFF)) else none

/-- Takes up one item of a receiver's report. -/
def onItem (now : UInt64) (s : Sender) (item : ReportItem) : Sender :=
  match s.roundTrip? item now with
  | none => s
  | some rtt => { s with roundTrips := s.roundTrips.put item.ssrc rtt }

/-- Takes up one block of an extended report. -/
def onBlock (ssrc : UInt32) (now : UInt64) (s : Sender) : XrBlock → Sender
  | .referenceTime ntp => { s with references := s.references.put ssrc (ntp.compact, now) }
  | .delays _ => s

/-- Takes up a control packet. -/
def onPacket (s : Sender) (p : Packet) (now : UInt64) : Sender :=
  match p with
  | .receiver r => r.items.foldl (onItem now) s
  | .extended r => r.blocks.foldl (onBlock r.ssrc now) s
  | .sender _ => s

/-- The latest round-trip time to a receiver in milliseconds, zero if unknown. -/
def roundTrip (s : Sender) (ssrc : UInt32) : UInt32 := (s.roundTrips.get? ssrc).getD 0

end Sender

end CastHub.Rtcp
