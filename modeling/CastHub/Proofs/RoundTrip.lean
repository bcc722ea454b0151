import CastHub.Proofs.Recency
import CastHub.Proofs.Table
import CastHub.Proofs.Wire
import CastHub.Rtcp.Receiver
/-!
# A round trip is measured

A sender makes a report, which travels to a receiver; some time later the receiver makes one of its
own, which travels back. Each end only looks at its own clock: the receiver says how long it held
the report, and the sender takes that off the time since it sent the report. What is left is the
time that both reports were travelling.

* `Receiver.Event`, `Receiver.after` : what may happen to a receiver, and a run of it;
* `Receiver.lastReport_after` : media packets, its own reports and packets of other kinds leave the
  report that a receiver echoes as it is;
* `msOfDelay_delayOfMs` : a delay comes back from its unit, or one millisecond less does;
* `Sender.transmit_report`, `Receiver.transmit_report` : every report arrives as it was made;
* `Exchange.run` : both ways of a round trip with all that happens meanwhile at the two ends;
* `Exchange.measured` : what the sender then knows.
-/

namespace CastHub.Rtcp

/-! ## Runs of a receiver -/

namespace Receiver

/-- What may happen to a receiver. -/
inductive Event where
  | media (p : MediaPacket) (now : UInt64)
  | packet (p : Packet) (now : UInt64)
  | report (ssrc stream : UInt32) (now : UInt64)
  | expectedInterval
  | lostInterval

/-- The receiver after an event. -/
def step (r : Receiver) : Event → Receiver
  | .media p now => r.onMedia p now
  | .packet p now => r.onPacket p now
  | .report ssrc stream now => (r.report ssrc stream now).2
  | .expectedInterval => r.expectedInterval.2
  | .lostInterval => r.lostInterval.2

/-- The receiver after a run of events. -/
def after (r : Receiver) (events : List Event) : Receiver := events.foldl step r

/-- What a receiver echoes: the compact time of the latest sender report, and when it arrived. -/
def echo (r : Receiver) : UInt32 × UInt64 := (r.lastReport, r.lastReportMs)

variable {r : Receiver}

theorem trackMax_eq (seq : UInt16) : r.trackMax seq =
    { r with
      maxSeq := (r.trackMax seq).maxSeq
      cycles := (r.trackMax seq).cycles
      lastWrap := (r.trackMax seq).lastWrap } := by
  unfold trackMax
  split
  · rfl
  · split <;> rfl

theorem trackBase_eq (seq : UInt16) :
    r.trackBase seq = { r with base := (r.trackBase seq).base } := by
  unfold trackBase
  split
  · rfl
  · split <;> rfl

/-- A media packet leaves all alone that does not count, follow numbers or measure arrivals. -/
theorem onMedia_eq (p : MediaPacket) (now : UInt64) : r.onMedia p now =
    { r with
      counters := (r.onMedia p now).counters
      base := (r.onMedia p now).base
      maxSeq := (r.onMedia p now).maxSeq
      cycles := (r.onMedia p now).cycles
      lastWrap := (r.onMedia p now).lastWrap
      jitter := (r.onMedia p now).jitter
      lastArrival := (r.onMedia p now).lastArrival } := by
  unfold onMedia
  dsimp only
  rw [trackBase_eq, trackMax_eq]

theorem echo_onMedia (p : MediaPacket) (now : UInt64) : (r.onMedia p now).echo = r.echo := by
  rw [onMedia_eq]
  rfl

/-- Only a sender report changes what a receiver echoes. -/
theorem echo_step {e : Event} (other : ∀ report now, e ≠ .packet (.sender report) now) :
    (r.step e).echo = r.echo := by
  cases e with
  | media p now => exact echo_onMedia p now
  | packet p now =>
    cases p with
    | sender report => exact absurd rfl (other report now)
    | receiver report => rfl
    | extended report => rfl
  | report ssrc stream now => rfl
  | expectedInterval => rfl
  | lostInterval => rfl

theorem echo_after {events : List Event}
    (other : ∀ report now, .packet (.sender report) now ∉ events) :
    (r.after events).echo = r.echo := by
  induction events generalizing r with
  | nil => rfl
  | cons e rest ih =>
    have here : (r.step e).echo = r.echo :=
      echo_step fun report now same => other report now (same ▸ List.mem_cons_self ..)
    exact (ih fun report now mem => other report now (List.mem_cons_of_mem _ mem)).trans here

end Receiver

/-! ## Delays -/

/-- A delay of less than eighteen hours comes back from the unit in which it travels, or one
millisecond less does. -/
theorem msOfDelay_delayOfMs {ms : Nat} (short : ms < 65536000) :
    msOfDelay (delayOfMs ms) = ms ∨ msOfDelay (delayOfMs ms) + 1 = ms := by
  have fits : (delayOfMs ms).toNat = ms * 65536 / 1000 := by
    unfold delayOfMs
    rw [UInt32.toNat_ofNat', Nat.mod_eq_of_lt (by omega)]
  unfold msOfDelay
  rw [fits]
  omega

/-! ## Reports on the wire -/

/-- A packet as the other end gets it: its bytes, read again. -/
def Packet.transmit (p : Packet) : Except WireError Packet := do
  let bytes ← p.encode
  let (arrived, _) ← parse bytes
  return arrived

/-- A packet that has room in the format arrives as it was. -/
theorem Packet.Fits.transmit {p : Packet} (h : p.Fits) : p.transmit = .ok p := by
  obtain ⟨bytes, written, read⟩ :
      ∃ bytes, p.encode = .ok bytes ∧ parse (bytes ++ []) = .ok (p, bytes.length) :=
    ⟨_, h.encode_eq, h.parse_words []⟩
  rw [List.append_nil] at read
  rw [Packet.transmit, written]
  show (parse bytes).bind _ = _
  rw [read]
  rfl

theorem Sender.transmit_report (s : Sender) (ssrc : UInt32) (now : UInt64) :
    (Packet.sender (s.report ssrc now).1).transmit = .ok (.sender (s.report ssrc now).1) :=
  Packet.Fits.transmit ⟨Nat.zero_le _, fun _ mem => nomatch mem⟩

/-- The one item of a receiver's report on a stream. -/
def Receiver.item (r : Receiver) (stream : UInt32) (now : UInt64) : ReportItem :=
  { ssrc := stream
    fractionLost := fractionLost r.lostInterval.1 r.expectedInterval.1
    cumulativeLost := UInt32.ofNat (min r.lost 0xFFFFFF)
    cycles := r.cycles
    maxSeq := r.maxSeq
    jitter := r.jitter.toUInt32
    lastReport := r.lastReport
    delay := r.delaySinceReport now }

theorem Receiver.fits_item (r : Receiver) (stream : UInt32) (now : UInt64) :
    (r.item stream now).Fits := by
  show (UInt32.ofNat (min r.lost 0xFFFFFF)).toNat < 0x1000000
  rw [UInt32.toNat_ofNat']
  omega

theorem Receiver.transmit_report (r : Receiver) (ssrc stream : UInt32) (now : UInt64) :
    (Packet.receiver (r.report ssrc stream now).1).transmit
      = .ok (.receiver (r.report ssrc stream now).1) := by
  refine Packet.Fits.transmit ⟨(by decide : 1 ≤ maxItems), fun item mem => ?_⟩
  rw [List.mem_singleton.1 mem]
  exact r.fits_item stream now

/-! ## Taking up an item -/

/-- An item that echoes a remembered report shows the time since that report, without the delay. -/
theorem Sender.roundTrip?_of_sentAt? {s : Sender} {item : ReportItem} {sentMs : UInt64}
    (echoes : item.lastReport ≠ 0) (found : s.sentAt? item.lastReport = some sentMs) (now : UInt64) :
    s.roundTrip? item now = if msOfDelay item.delay ≤ now.toNat - sentMs.toNat
      then some (UInt32.ofNat (min (now.toNat - sentMs.toNat - msOfDelay item.delay) 0xFFFFFFFF))
      else none := by
  unfold Sender.roundTrip?
  rw [if_neg echoes, found]
  rfl

/-- What a sender knows of the way to `stream` after an item about it. -/
theorem Sender.roundTrip_onItem (s : Sender) (item : ReportItem) (now : UInt64) :
    (Sender.onItem now s item).roundTrip item.ssrc
      = (s.roundTrip? item now).getD (s.roundTrip item.ssrc) := by
  unfold Sender.onItem
  cases s.roundTrip? item now with
  | none => rfl
  | some rtt =>
    show ((s.roundTrips.put item.ssrc rtt).get? item.ssrc).getD 0 = rtt
    rw [Table.get?_put, if_pos rfl]
    rfl

/-! ## There and back -/

/-- A round trip: both ends as they are when it begins, what it is about, and all that happens on
the way. -/
structure Exchange where
  sender : Sender
  receiver : Receiver
  /-- The stream that is reported on. -/
  stream : UInt32
  /-- Whom the receiver reports as. -/
  reporter : UInt32
  /-- When the sender makes its report, on its clock. -/
  sentMs : UInt64
  /-- What happens to the sender until the answer arrives. -/
  between : List Sender.Event
  /-- When the report arrives, on the receiver's clock. -/
  arrivedMs : UInt64
  /-- What happens to the receiver until it answers. -/
  meanwhile : List Receiver.Event
  /-- When the receiver makes its own report, on its clock. -/
  answeredMs : UInt64
  /-- When that arrives, on the sender's clock. -/
  returnedMs : UInt64

namespace Exchange

/-- The sender just before the answer arrives. -/
def before (x : Exchange) : Sender := (x.sender.report x.stream x.sentMs).2.after x.between

/-- The sender after a round trip. -/
def run (x : Exchange) : Except WireError Sender := do
  let report ← (Packet.sender (x.sender.report x.stream x.sentMs).1).transmit
  let receiver := (x.receiver.onPacket report x.arrivedMs).after x.meanwhile
  let answer ← (Packet.receiver (receiver.report x.reporter x.stream x.answeredMs).1).transmit
  return x.before.onPacket answer x.returnedMs

/-- The reports that the sender makes on the way. -/
def others (x : Exchange) : List SentReport := (x.sender.report x.stream x.sentMs).2.sent x.between

/-- The receiver just before it answers. -/
def answering (x : Exchange) : Receiver :=
  (x.receiver.onPacket (.sender (x.sender.report x.stream x.sentMs).1) x.arrivedMs).after x.meanwhile

variable {x : Exchange}

/-- Both reports arrive. -/
theorem run_eq (x : Exchange) : x.run
    = .ok (Sender.onItem x.returnedMs x.before (x.answering.item x.stream x.answeredMs)) := by
  unfold run
  rw [Sender.transmit_report]
  show (Packet.transmit (.receiver (x.answering.report x.reporter x.stream x.answeredMs).1)).bind _ = _
  rw [Receiver.transmit_report]
  rfl

/-- The receiver answers with what it got. -/
theorem echo_answering (last : ∀ report now, .packet (.sender report) now ∉ x.meanwhile) :
    x.answering.echo = (x.sender.stamp, x.arrivedMs) :=
  Receiver.echo_after last

/-- **A round trip is measured.** Let the sender's report be the last one that the receiver hears of
before it answers, let the sender make at most four different others meanwhile, and no equal one. If
the receiver holds the report for less than eighteen hours, then the time it says is right to the
millisecond, and the sender knows of this round trip the time that passed on its clock without the
time that the receiver says; only if more was held than has passed does it know what it knew before.
Neither the rest of the history nor the difference of the clocks matters. -/
theorem measured (x : Exchange) {held elapsed : Nat} (stamped : x.sender.stamp ≠ 0)
    (hold : x.answeredMs.toNat = x.arrivedMs.toNat + held) (short : held < 65536000)
    (pass : x.returnedMs.toNat = x.sentMs.toNat + elapsed)
    (last : ∀ report now, .packet (.sender report) now ∉ x.meanwhile)
    (apart : ∀ r ∈ x.others, r.stamp ≠ x.sender.stamp)
    (few : (x.others.map (·.stamp)).toFinset.card ≤ 4) :
    ∃ s, x.run = .ok s
      ∧ (msOfDelay (delayOfMs held) = held ∨ msOfDelay (delayOfMs held) + 1 = held)
      ∧ (s.roundTrip x.stream).toNat = if msOfDelay (delayOfMs held) ≤ elapsed
          then min (elapsed - msOfDelay (delayOfMs held)) 0xFFFFFFFF
          else (x.before.roundTrip x.stream).toNat := by
  refine ⟨_, x.run_eq, msOfDelay_delayOfMs short, ?_⟩
  obtain ⟨stamp, arrived⟩ := Prod.mk.inj (echo_answering last)
  let item := x.answering.item x.stream x.answeredMs
  have echoes : item.lastReport = x.sender.stamp := stamp
  have delay : item.delay = delayOfMs held := by
    show x.answering.delaySinceReport x.answeredMs = _
    unfold Receiver.delaySinceReport
    rw [stamp, arrived, if_neg stamped, hold, Nat.add_sub_cancel_left]
  have found : x.before.sentAt? item.lastReport = some x.sentMs := by
    rw [echoes]
    exact Sender.sentAt?_after x.stream x.sentMs apart (Nat.lt_succ_of_le few)
  have shows := Sender.roundTrip?_of_sentAt? (echoes ▸ stamped) found x.returnedMs
  rw [delay, pass, Nat.add_sub_cancel_left] at shows
  show ((Sender.onItem x.returnedMs x.before item).roundTrip item.ssrc).toNat = _
  rw [Sender.roundTrip_onItem, shows]
  split
  · show (UInt32.ofNat _).toNat = _
    rw [UInt32.toNat_ofNat']
    omega
  · rfl

/-- A report on a stream that began in 2023, which is held for 50 of 80 milliseconds. Meanwhile the
stream goes on, the sender makes another report and hears of a report on another stream, and the
receiver makes a report that is lost. -/
def prompt : Exchange where
  sender := { counters := { lastNtpMs := 1700000000000 } }
  receiver := {}
  stream := 7
  reporter := 8
  sentMs := 1000
  between := [.media ⟨2, 960, 1700000000020, 48000, 100⟩, .report 7 1020,
    .packet (.receiver ⟨8, [{ ssrc := 9, lastReport := 5, delay := 6 }]⟩) 1040]
  arrivedMs := 600000
  meanwhile := [.media ⟨2, 960, 1700000000020, 48000, 100⟩ 600010, .report 8 7 600020]
  answeredMs := 600050
  returnedMs := 1080

/-- So it is with that report: 49 milliseconds are said to have passed at the receiver. -/
theorem measured_prompt : ∃ s, prompt.run = .ok s ∧ (s.roundTrip 7).toNat = 31 := by
  have hold : prompt.answeredMs.toNat = prompt.arrivedMs.toNat + 50 := rfl
  have pass : prompt.returnedMs.toNat = prompt.sentMs.toNat + 80 := rfl
  obtain ⟨s, ran, -, rtt⟩ := measured prompt (by decide) hold (by decide) pass (by simp [prompt])
    (by decide) (by decide)
  have said : msOfDelay (delayOfMs 50) = 49 := by decide
  rw [said, if_pos (by decide)] at rtt
  exact ⟨s, ran, rtt⟩

end Exchange

end CastHub.Rtcp
