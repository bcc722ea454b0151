import CastHub.Event.Basic
/-!
# The event log

Every event that passes through a service is pushed onto its log.

* The *history* keeps the newest `capacity` events for late observers.
* The *live channel* keeps the newest `window` events, where the window is the capacity, but at
  least sixteen, rounded up to a power of two.
* A `Cursor` is a place in the live channel: it stands before the next event that its owner has not
  seen. Draining a cursor that has fallen more than a window behind skips the oldest events and
  tells how many. Its owner may also look at one event at a time.
* A `Tap` begins with the history at the time of subscription and goes on with the live channel.
-/

namespace CastHub

/-- The least power of two that is not below `n`. -/
def powerOfTwoAbove (n : Nat) : Nat := if n ≤ 1 then 1 else Nat.pow 2 (Nat.log2 (n - 1) + 1)

/-- The newest `n` elements of a list that grows at its end. -/
def newest {α : Type} (n : Nat) (xs : List α) : List α := xs.drop (xs.length - n)

/-- A log of events. -/
structure EventLog where
  capacity : Nat
  history : List Event := []
  /-- The live channel: the newest events, at most a window of them. -/
  live : List Event := []
  /-- How many events were ever pushed. -/
  pushed : Nat := 0

/-- A place in the live channel: `next` events had been pushed before it. -/
structure Cursor where
  next : Nat
deriving Repr, DecidableEq

/-- An observer that starts with the history: what it has still to see of that, and its place in the
live channel. -/
structure Tap where
  backlog : List Event
  cursor : Cursor

namespace EventLog

/-- The capacity of a service's log. -/
def defaultCapacity : Nat := 1024

/-- How many events the live channel keeps. -/
def window (log : EventLog) : Nat := powerOfTwoAbove (max log.capacity 16)

/-- Appends an event. -/
def push (log : EventLog) (e : Event) : EventLog :=
  { log with
    history := newest log.capacity (log.history ++ [e])
    live := newest log.window (log.live ++ [e])
    pushed := log.pushed + 1 }

/-- Appends several events. -/
def pushAll (log : EventLog) (es : List Event) : EventLog := es.foldl push log

/-- The kept events that were addressed to a subsystem. -/
def historyFor (log : EventLog) (target : Subsystem) : List Event :=
  log.history.filter (·.target = target)

/-- A cursor that will see what is pushed from now on. -/
def cursor (log : EventLog) : Cursor := ⟨log.pushed⟩

/-- A tap that sees the history and then what is pushed from now on. -/
def tap (log : EventLog) : Tap := ⟨log.history, log.cursor⟩

end EventLog

/-- Everything that a cursor has not seen, as far as the live channel still has it; how many events
it has lost; and the cursor afterwards. -/
def Cursor.drain (cursor : Cursor) (log : EventLog) : List Event × Nat × Cursor :=
  let unread := log.pushed - cursor.next
  (newest unread log.live, unread - log.live.length, log.cursor)

/-- What the owner of a cursor sees at one look. -/
inductive Cursor.Sight where
  | event (e : Event)
  /-- So many events were lost since the look before. -/
  | lagged (count : Nat)

/-- The cursor, or the place before the oldest event that the live channel still has if that is
further on. -/
def Cursor.catchUp (cursor : Cursor) (log : EventLog) : Cursor :=
  ⟨max cursor.next (log.pushed - log.live.length)⟩

/-- The event that a cursor stands before, if there is one, and the cursor behind it. -/
def Cursor.next? (cursor : Cursor) (log : EventLog) : Option (Event × Cursor) :=
  (newest (log.pushed - cursor.next) log.live).head?.map fun e => (e, ⟨cursor.next + 1⟩)

/-- One look at the live channel, and the cursor afterwards. A cursor that has lost events is told
how many and set before the oldest one that is left; any other one sees the next event, if there is
one. -/
def Cursor.look? (cursor : Cursor) (log : EventLog) : Option (Cursor.Sight × Cursor) :=
  let caught := cursor.catchUp log
  if cursor.next < caught.next then some (.lagged (caught.next - cursor.next), caught)
  else (cursor.next? log).map fun (e, cursor) => (.event e, cursor)

/-- Everything that a tap has not seen, and the tap afterwards. What the live channel has lost is
passed over in silence. -/
def Tap.drain (tap : Tap) (log : EventLog) : List Event × Tap :=
  let (events, _, cursor) := tap.cursor.drain log
  (tap.backlog ++ events, ⟨[], cursor⟩)

/-- The next event that a tap has not seen, and the tap afterwards. What the live channel has lost
is passed over in silence. -/
def Tap.look? (tap : Tap) (log : EventLog) : Option (Event × Tap) :=
  match tap.backlog with
  | e :: backlog => some (e, { tap with backlog })
  | [] => ((tap.cursor.catchUp log).next? log).map fun (e, cursor) => (e, ⟨[], cursor⟩)

end CastHub
