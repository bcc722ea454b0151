import CastHub.Decimal.Fixed
import CastHub.Rtcp.Receiver
import CastHub.Rtcp.Sender
import CastHub.Rtcp.Wire
/-!
# Feedback on a media stream

A sender sends fifty packets to a receiver, and every tenth is lost. Then they exchange a sender
report and a receiver report over the wire, with a delay on the way and one at the receiver.
-/

namespace CastHub.Demo

open Rtcp

/-- How many packets are sent. -/
def packetCount : Nat := 50

/-- Milliseconds from one packet to the next. -/
def packetGap : Nat := 33

/-- When the first packet is sent, in Unix milliseconds. -/
def startMs : Nat := 1700000000000

/-- When the packet with a given number is sent. -/
def sentMs (i : Nat) : UInt64 := UInt64.ofNat (startMs + i * packetGap)

/-- The packet with a given number. -/
def packet (i : Nat) : MediaPacket :=
  { seq := UInt16.ofNat i, stamp := UInt32.ofNat (i * 3000), ntpMs := sentMs i, rate := 90000,
    bytes := 1200 }

/-- Whether the packet with a given number gets lost. -/
def isLost (i : Nat) : Bool := i % 10 = 9

/-- Sends a packet over the wire. -/
def transmit (p : Packet) : Except WireError Packet := do
  let bytes ← p.encode
  let (p, _) ← Packet.parse bytes
  return p

/-- Plays the exchange and sums it up in one line. -/
def feedback : Except WireError String := do
  let numbers := List.range packetCount
  let sender := numbers.foldl (fun (s : Sender) i => s.onMedia (packet i)) {}
  let receiver := (numbers.filter (!isLost ·)).foldl
    (fun (r : Receiver) i => r.onMedia (packet i) (sentMs i)) {}
  let now := sentMs packetCount
  let (report, sender) := sender.report 0x1111 now
  let receiver := receiver.onPacket (← transmit (.sender report)) now
  let (answer, receiver) := receiver.report 0x2222 0x1111 (now + 40)
  let sender := sender.onPacket (← transmit (.receiver answer)) (now + 60)
  return s!"RTCP: sent {sender.counters.packets} packets, receiver lost {receiver.lost}, "
    ++ "jitter " ++ Decimal.fixed 2 receiver.jitter
    ++ s!", rtt {sender.roundTrip 0x1111} ms"

end CastHub.Demo
