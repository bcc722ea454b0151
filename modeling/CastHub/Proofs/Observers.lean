import CastHub.EventLog
import Mathlib.Algebra.GroupWithZero.Nat
import Mathlib.Order.Bounds.Basic
import Mathlib.Tactic.Common
/-!
# Observers of the event log

A push feeds two things of different size: the history, which keeps up to its capacity, and the live
channel, which keeps a window of at least sixteen. An observer may come at any time and read as
often or as seldom as it likes, one event at a time or everything at once. What it is to see depends
on nothing but the events that it has not read: of these the oldest are lost as soon as there are
more than a window.

* `newest_concat` : what has been pushed out of a list of the newest plays no part later;
* `EventLog.Keeps` : the invariant, a log after some events, with `Keeps.push` for one more;
* `Cursor.unread` : what there is to read, and `Keeps.look?_of_lost`, `Keeps.look?_of_kept`,
  `Keeps.tapLook?_eq` and `Keeps.drain_eq` for one reading of it;
* `told` and `owed` : what the owners of a cursor and of a tap are to see, by what is unread only;
* `Cursor.watch_eq` and `Tap.watch_eq` : they see just that, whatever is pushed and read meanwhile;
* `Cursor.watch_drain` and `Tap.watch_drain` : taking everything is looking again and again;
* `Accounts` and `accounts_told` : what the owner of a cursor has seen tells of each event whether
  it was delivered or lost, with `Accounts.length_eq` for their sum;
* `exists_seen` : what the owner of a tap has seen begins with the history and is in order;
* `observers_see_what_is_kept` : all of it for a new log.
-/

namespace CastHub

/-! ## The newest of a list -/

section Newest

variable {α : Type} {n m k : Nat} {xs ys : List α}

theorem length_newest (n : Nat) (xs : List α) : (newest n xs).length = min n xs.length := by
  rw [newest, List.length_drop]
  omega

theorem newest_of_length_le (short : xs.length ≤ n) : newest n xs = xs := by
  rw [newest, Nat.sub_eq_zero_of_le short, List.drop_zero]

theorem newest_newest_self (n : Nat) (xs : List α) : newest n (newest n xs) = newest n xs :=
  newest_of_length_le (by rw [length_newest]; omega)

/-- Whoever keeps something keeps nothing of nothing only. -/
theorem eq_nil_of_newest (some : 0 < n) (none : newest n xs = []) : xs = [] := by
  have length : (newest n xs).length = 0 := congrArg List.length none
  rw [length_newest] at length
  exact List.length_eq_zero_iff.1 (by omega)

/-- What is pushed out stays out. -/
theorem newest_concat (n : Nat) (xs : List α) (x : α) :
    newest n (newest n xs ++ [x]) = newest n (xs ++ [x]) := by
  unfold newest
  rw [← List.drop_append_of_le_length (by omega), List.drop_drop]
  congr 1
  simp only [List.length_append, List.length_drop, List.length_cons, List.length_nil]
  omega

/-- The newest of those behind a place. -/
theorem newest_newest_eq (behind : k ≤ xs.length) :
    newest (xs.length - k) (newest n xs) = newest n (xs.drop k) := by
  unfold newest
  rw [List.drop_drop, List.drop_drop]
  congr 1
  simp only [List.length_drop]
  omega

end Newest

theorem isLeast_powerOfTwoAbove (n : Nat) :
    IsLeast {m | n ≤ m ∧ ∃ k, m = 2 ^ k} (powerOfTwoAbove n) := by
  unfold powerOfTwoAbove
  split
  · rename_i small
    refine ⟨⟨small, 0, rfl⟩, ?_⟩
    rintro m ⟨-, k, rfl⟩
    exact Nat.one_le_two_pow
  · rename_i large
    have some : n - 1 ≠ 0 := by omega
    refine ⟨⟨?_, _, rfl⟩, ?_⟩
    · have below : n - 1 < 2 ^ ((n - 1).log2 + 1) := Nat.lt_log2_self
      show n ≤ 2 ^ _
      omega
    · rintro m ⟨above, k, rfl⟩
      have least : 2 ^ (n - 1).log2 ≤ n - 1 := Nat.log2_self_le some
      have below : 2 ^ (n - 1).log2 < 2 ^ k := by omega
      have less : (n - 1).log2 < k := (Nat.pow_lt_pow_iff_right (by decide)).1 below
      exact Nat.pow_le_pow_right (by decide) less

/-! ## A log -/

namespace EventLog

variable {log : EventLog} {pushes : List Event}

/-- A log that keeps what it is to keep of some events: the newest ones, twice. -/
structure Keeps (log : EventLog) (pushes : List Event) : Prop where
  pushed : log.pushed = pushes.length
  history : log.history = newest log.capacity pushes
  live : log.live = newest log.window pushes

theorem window_pos (log : EventLog) : 0 < log.window := by
  have covers : max log.capacity 16 ≤ log.window := (isLeast_powerOfTwoAbove _).1.1
  omega

theorem keeps_fresh (capacity : Nat) : ({ capacity } : EventLog).Keeps [] := by
  constructor
  · rfl
  · exact (newest_of_length_le (Nat.zero_le _)).symm
  · exact (newest_of_length_le (Nat.zero_le _)).symm

theorem Keeps.push (h : log.Keeps pushes) (e : Event) : (log.push e).Keeps (pushes ++ [e]) := by
  constructor
  · show log.pushed + 1 = _
    rw [h.pushed, List.length_append]
    rfl
  · show newest log.capacity (log.history ++ [e]) = _
    rw [h.history]
    exact newest_concat ..
  · show newest log.window (log.live ++ [e]) = _
    rw [h.live]
    exact newest_concat ..

theorem Keeps.pushAll (h : log.Keeps pushes) (more : List Event) :
    (log.pushAll more).Keeps (pushes ++ more) ∧ (log.pushAll more).capacity = log.capacity := by
  induction more generalizing log pushes with
  | nil =>
    rw [List.append_nil]
    exact ⟨h, rfl⟩
  | cons e more ih =>
    have all := ih (h.push e)
    rw [List.append_assoc] at all
    exact all

/-- A new log after some events. -/
theorem keeps_pushAll (capacity : Nat) (pushes : List Event) :
    (({ capacity } : EventLog).pushAll pushes).Keeps pushes
      ∧ (({ capacity } : EventLog).pushAll pushes).capacity = capacity :=
  (keeps_fresh capacity).pushAll pushes

end EventLog

/-! ## What is unread -/

/-- What the owner of a cursor has not seen of some events. -/
def Cursor.unread (cursor : Cursor) (pushes : List Event) : List Event := pushes.drop cursor.next

namespace EventLog

variable {log : EventLog} {pushes : List Event} {cursor : Cursor}

theorem unread_concat (behind : cursor.next ≤ pushes.length) (e : Event) :
    cursor.unread (pushes ++ [e]) = cursor.unread pushes ++ [e] :=
  List.drop_append_of_le_length behind

/-- A cursor that has fallen behind loses what is beyond a window. -/
theorem Keeps.catchUp_eq (h : log.Keeps pushes) :
    cursor.catchUp log = ⟨cursor.next + ((cursor.unread pushes).length - log.window)⟩ := by
  refine congrArg Cursor.mk ?_
  rw [h.pushed, h.live, length_newest, Cursor.unread, List.length_drop]
  omega

/-- Behind what is lost, there is what is left. -/
theorem unread_lost (window : Nat) :
    Cursor.unread ⟨cursor.next + ((cursor.unread pushes).length - window)⟩ pushes
      = newest window (cursor.unread pushes) := by
  rw [newest, Cursor.unread, Cursor.unread, List.drop_drop]

/-- The event that is seen is the oldest of those that are left. -/
theorem Keeps.next?_eq (h : log.Keeps pushes) (behind : cursor.next ≤ pushes.length) :
    cursor.next? log =
      (newest log.window (cursor.unread pushes)).head?.map fun e => (e, ⟨cursor.next + 1⟩) := by
  rw [Cursor.next?, h.pushed, h.live, newest_newest_eq behind]
  rfl

/-- Behind an event there are the others. -/
theorem unread_tail {e : Event} {later : List Event} (found : cursor.unread pushes = e :: later) :
    Cursor.unread ⟨cursor.next + 1⟩ pushes = later ∧ cursor.next + 1 ≤ pushes.length := by
  have tail : (pushes.drop cursor.next).tail = later := congrArg List.tail found
  have length : (pushes.drop cursor.next).length = later.length + 1 := congrArg List.length found
  rw [List.tail_drop] at tail
  rw [List.length_drop] at length
  exact ⟨tail, by omega⟩

/-- Whoever has lost events is told so first. -/
theorem Keeps.look?_of_lost (h : log.Keeps pushes)
    (lost : log.window < (cursor.unread pushes).length) :
    cursor.look? log = some (.lagged ((cursor.unread pushes).length - log.window),
      ⟨cursor.next + ((cursor.unread pushes).length - log.window)⟩) := by
  rw [Cursor.look?, h.catchUp_eq]
  dsimp only
  rw [if_pos (by omega), Nat.add_sub_cancel_left]

/-- Whoever has lost none sees the next one. -/
theorem Keeps.look?_of_kept (h : log.Keeps pushes) (behind : cursor.next ≤ pushes.length)
    (kept : (cursor.unread pushes).length ≤ log.window) :
    cursor.look? log =
      (cursor.unread pushes).head?.map fun e => (.event e, ⟨cursor.next + 1⟩) := by
  rw [Cursor.look?, h.catchUp_eq, h.next?_eq behind, newest_of_length_le kept]
  dsimp only
  rw [if_neg (by omega), Option.map_map]
  rfl

/-- A tap that has read the history sees the oldest event that is left. -/
theorem Keeps.tapLook?_eq (h : log.Keeps pushes) (behind : cursor.next ≤ pushes.length) :
    Tap.look? ⟨[], cursor⟩ log =
      (newest log.window (cursor.unread pushes)).head?.map fun e =>
        (e, ⟨[], ⟨cursor.next + ((cursor.unread pushes).length - log.window) + 1⟩⟩) := by
  have caught : cursor.next + ((cursor.unread pushes).length - log.window) ≤ pushes.length := by
    rw [Cursor.unread, List.length_drop]
    omega
  show ((cursor.catchUp log).next? log).map _ = _
  rw [h.catchUp_eq, h.next?_eq caught, unread_lost, newest_newest_self, Option.map_map]
  rfl

/-- A drain gives all that is left and tells how many are not. -/
theorem Keeps.drain_eq (h : log.Keeps pushes) (behind : cursor.next ≤ pushes.length) :
    cursor.drain log = (newest log.window (cursor.unread pushes),
      (cursor.unread pushes).length - log.window, ⟨pushes.length⟩) := by
  have lost : pushes.length - cursor.next - min log.window pushes.length
      = (cursor.unread pushes).length - log.window := by
    rw [Cursor.unread, List.length_drop]
    omega
  rw [Cursor.drain, EventLog.cursor, h.pushed, h.live, newest_newest_eq behind, length_newest, lost]
  rfl

end EventLog

/-! ## Observers -/

/-- What may happen while somebody observes a log. -/
inductive Observation where
  | push (e : Event)
  /-- The observer looks once. -/
  | look
  /-- The observer takes everything that there is. -/
  | drain

/-- What is pushed. -/
def Observation.pushed? : Observation → Option Event
  | push e => some e
  | look | drain => none

/-- What the owner of a cursor sees when he takes everything. -/
def Cursor.sights (events : List Event) (lost : Nat) : List Cursor.Sight :=
  (if lost = 0 then [] else [.lagged lost]) ++ events.map .event

/-- What the owner of a cursor sees, one sight after another. -/
def Cursor.watch (cursor : Cursor) (log : EventLog) : List Observation → List Cursor.Sight
  | [] => []
  | .push e :: rest => cursor.watch (log.push e) rest
  | .look :: rest =>
    match cursor.look? log with
    | none => cursor.watch log rest
    | some (sight, cursor) => sight :: cursor.watch log rest
  | .drain :: rest =>
    let (events, lost, cursor) := cursor.drain log
    Cursor.sights events lost ++ cursor.watch log rest

/-- What the owner of a tap sees. -/
def Tap.watch (tap : Tap) (log : EventLog) : List Observation → List Event
  | [] => []
  | .push e :: rest => tap.watch (log.push e) rest
  | .look :: rest =>
    match tap.look? log with
    | none => tap.watch log rest
    | some (e, tap) => e :: tap.watch log rest
  | .drain :: rest =>
    let (events, tap) := tap.drain log
    events ++ tap.watch log rest

/-- What somebody is to see who has the events `unread` to read, of which no more than `window` are
kept: word of those that are lost, before anything else, and then the others in their order. -/
def told (window : Nat) (unread : List Event) : List Observation → List Cursor.Sight
  | [] => []
  | .push e :: rest => told window (unread ++ [e]) rest
  | .look :: rest =>
    if window < unread.length then
      .lagged (unread.length - window) :: told window (newest window unread) rest
    else (unread.take 1).map .event ++ told window (unread.drop 1) rest
  | .drain :: rest =>
    Cursor.sights (newest window unread) (unread.length - window) ++ told window [] rest

/-- What somebody is to see who has the history `backlog` to read and then the events `unread`, of
which no more than `window` are kept: the one and then the other, without what is lost. -/
def owed (window : Nat) (backlog unread : List Event) : List Observation → List Event
  | [] => []
  | .push e :: rest => owed window backlog (unread ++ [e]) rest
  | .look :: rest =>
    if backlog = [] then
      (newest window unread).take 1 ++ owed window [] ((newest window unread).drop 1) rest
    else backlog.take 1 ++ owed window (backlog.drop 1) unread rest
  | .drain :: rest => backlog ++ newest window unread ++ owed window [] [] rest

section Watch

variable {log : EventLog} {pushes : List Event}

theorem Cursor.watch_eq {cursor : Cursor} (h : log.Keeps pushes)
    (behind : cursor.next ≤ pushes.length) (acts : List Observation) :
    cursor.watch log acts = told log.window (cursor.unread pushes) acts := by
  induction acts generalizing log pushes cursor with
  | nil => rfl
  | cons act rest ih =>
    cases act with
    | push e =>
      rw [Cursor.watch, told, ← EventLog.unread_concat behind]
      refine ih (h.push e) ?_
      rw [List.length_append]
      omega
    | look =>
      rw [Cursor.watch, told]
      by_cases lost : log.window < (cursor.unread pushes).length
      · rw [h.look?_of_lost lost, if_pos lost, ← EventLog.unread_lost]
        dsimp only
        rw [ih h]
        have length : (cursor.unread pushes).length = pushes.length - cursor.next :=
          List.length_drop ..
        show cursor.next + ((cursor.unread pushes).length - log.window) ≤ _
        omega
      · rw [h.look?_of_kept behind (Nat.le_of_not_lt lost), if_neg lost]
        cases found : cursor.unread pushes with
        | nil =>
          have stays : cursor.watch log rest = told log.window (cursor.unread pushes) rest :=
            ih h behind
          rw [found] at stays
          exact stays
        | cons e later =>
          obtain ⟨rfl, next⟩ := EventLog.unread_tail found
          exact congrArg _ (ih h next)
    | drain =>
      have done : Cursor.unread ⟨pushes.length⟩ pushes = [] := List.drop_length
      rw [Cursor.watch, told, h.drain_eq behind]
      dsimp only
      rw [ih h (Nat.le_refl _), done]

theorem Tap.watch_eq {backlog : List Event} {cursor : Cursor} (h : log.Keeps pushes)
    (behind : cursor.next ≤ pushes.length) (acts : List Observation) :
    Tap.watch ⟨backlog, cursor⟩ log acts = owed log.window backlog (cursor.unread pushes) acts := by
  induction acts generalizing log pushes backlog cursor with
  | nil => rfl
  | cons act rest ih =>
    cases act with
    | push e =>
      rw [Tap.watch, owed, ← EventLog.unread_concat behind]
      refine ih (h.push e) ?_
      rw [List.length_append]
      omega
    | look =>
      cases backlog with
      | cons e backlog => exact congrArg _ (ih h behind)
      | nil =>
        rw [Tap.watch, h.tapLook?_eq behind, owed, if_pos rfl]
        have caught : Cursor.unread ⟨_⟩ pushes = newest log.window (cursor.unread pushes) :=
          EventLog.unread_lost log.window
        cases found : newest log.window (cursor.unread pushes) with
        | nil =>
          have stays : Tap.watch ⟨[], cursor⟩ log rest
              = owed log.window [] (cursor.unread pushes) rest := ih h behind
          rw [eq_nil_of_newest log.window_pos found] at stays
          exact stays
        | cons e later =>
          rw [found] at caught
          obtain ⟨rfl, next⟩ := EventLog.unread_tail caught
          exact congrArg _ (ih h next)
    | drain =>
      have done : Cursor.unread ⟨pushes.length⟩ pushes = [] := List.drop_length
      rw [Tap.watch, owed, Tap.drain, h.drain_eq behind]
      dsimp only
      rw [ih h (Nat.le_refl _), done]

end Watch

/-! ## One look after another -/

section Looks

variable {n k : Nat} {backlog unread : List Event}

theorem told_looks (rest : List Observation) (all : unread.length ≤ k) (kept : unread.length ≤ n) :
    told n unread (List.replicate k .look ++ rest) = unread.map .event ++ told n [] rest := by
  induction k generalizing unread with
  | zero =>
    obtain rfl : unread = [] := List.length_eq_zero_iff.1 (by omega)
    rfl
  | succ k ih =>
    rw [List.replicate_succ, List.cons_append, told, if_neg (by omega)]
    have left : (unread.drop 1).length = unread.length - 1 := List.length_drop
    rw [ih (by omega) (by omega), ← List.append_assoc, ← List.map_append, List.take_append_drop]

theorem told_drain (n : Nat) (unread : List Event) (rest : List Observation) :
    told n unread (.drain :: rest)
      = told n unread (List.replicate (n + 1) .look ++ rest) := by
  rw [told]
  by_cases lost : n < unread.length
  · have left : (newest n unread).length ≤ n := by
      rw [length_newest]
      omega
    rw [List.replicate_succ, List.cons_append, told, if_pos lost, told_looks rest left left,
      Cursor.sights, if_neg (by omega)]
    rfl
  · have kept : unread.length ≤ n := Nat.le_of_not_lt lost
    rw [told_looks rest (by omega) kept, newest_of_length_le kept, Nat.sub_eq_zero_of_le kept]
    rfl

theorem owed_looks (rest : List Observation) (some : 0 < n)
    (all : backlog.length + (newest n unread).length ≤ k) :
    owed n backlog unread (List.replicate k .look ++ rest)
      = backlog ++ newest n unread ++ owed n [] [] rest := by
  induction k generalizing backlog unread with
  | zero =>
    obtain rfl : backlog = [] := List.length_eq_zero_iff.1 (by omega)
    obtain rfl : unread = [] := eq_nil_of_newest some (List.length_eq_zero_iff.1 (by omega))
    rw [newest_of_length_le (Nat.zero_le _)]
    rfl
  | succ k ih =>
    rw [List.replicate_succ, List.cons_append, owed]
    split
    · rename_i read
      subst read
      have left : ((newest n unread).drop 1).length = (newest n unread).length - 1 :=
        List.length_drop
      have kept : newest n ((newest n unread).drop 1) = (newest n unread).drop 1 := by
        refine newest_of_length_le ?_
        rw [left, length_newest]
        omega
      rw [ih (by rw [kept, left]; simp only [List.length_nil] at *; omega), kept, List.nil_append,
        List.nil_append, ← List.append_assoc, List.take_append_drop]
    · rename_i waiting
      have left : (backlog.drop 1).length = backlog.length - 1 := List.length_drop
      have more : 0 < backlog.length := List.length_pos_iff.2 waiting
      rw [ih (by omega), ← List.append_assoc, ← List.append_assoc, List.take_append_drop]

theorem owed_drain (some : 0 < n) (backlog unread : List Event) (rest : List Observation) :
    owed n backlog unread (.drain :: rest)
      = owed n backlog unread (List.replicate (backlog.length + n) .look ++ rest) := by
  have kept : (newest n unread).length ≤ n := by
    rw [length_newest]
    omega
  rw [owed, owed_looks rest some (Nat.add_le_add_left kept _)]

variable {log : EventLog} {pushes : List Event} {cursor : Cursor}

/-- Whoever takes everything sees what he would see if he looked until there is nothing more. -/
theorem Cursor.watch_drain (h : log.Keeps pushes) (behind : cursor.next ≤ pushes.length)
    (rest : List Observation) :
    cursor.watch log (.drain :: rest)
      = cursor.watch log (List.replicate (log.window + 1) .look ++ rest) := by
  rw [Cursor.watch_eq h behind, Cursor.watch_eq h behind, told_drain]

theorem Tap.watch_drain (h : log.Keeps pushes) (behind : cursor.next ≤ pushes.length)
    (rest : List Observation) :
    Tap.watch ⟨backlog, cursor⟩ log (.drain :: rest)
      = Tap.watch ⟨backlog, cursor⟩ log
          (List.replicate (backlog.length + log.window) .look ++ rest) := by
  rw [Tap.watch_eq h behind, Tap.watch_eq h behind, owed_drain log.window_pos]

end Looks

/-! ## What is delivered, and what is lost -/

/-- The event that is seen. -/
def Cursor.Sight.event? : Cursor.Sight → Option Event
  | event e => some e
  | lagged _ => none

/-- The number of events that are told to be lost. -/
def Cursor.Sight.lost : Cursor.Sight → Nat
  | event _ => 0
  | lagged count => count

/-- Sights that account for some events, one after another: each of them was delivered, or is among
so many that were lost at that place. -/
inductive Accounts : List Cursor.Sight → List Event → Prop
  | nil : Accounts [] []
  | event {sights : List Cursor.Sight} {events : List Event} (e : Event)
      (later : Accounts sights events) : Accounts (.event e :: sights) (e :: events)
  | lagged {sights : List Cursor.Sight} {events : List Event} (lost : List Event)
      (later : Accounts sights events) : Accounts (.lagged lost.length :: sights) (lost ++ events)

section Accounts

variable {n : Nat} {sights : List Cursor.Sight} {events : List Event}

/-- What is delivered and what is lost add up. -/
theorem Accounts.length_eq (h : Accounts sights events) :
    (sights.filterMap Cursor.Sight.event?).length + (sights.map Cursor.Sight.lost).sum
      = events.length := by
  induction h with
  | nil => rfl
  | @event sights events e _ ih =>
    have delivered : (.event e :: sights).filterMap Cursor.Sight.event?
        = e :: sights.filterMap Cursor.Sight.event? := rfl
    rw [delivered, List.map_cons, List.sum_cons, List.length_cons, List.length_cons, ← ih]
    show _ + 1 + (0 + _) = _
    omega
  | lagged lost _ ih =>
    rw [List.filterMap_cons_none rfl, List.map_cons, List.sum_cons, List.length_append, ← ih]
    show _ + (lost.length + _) = _
    omega

theorem accounts_append (known : List Event) (h : Accounts sights events) :
    Accounts (known.map .event ++ sights) (known ++ events) := by
  induction known with
  | nil => exact h
  | cons e known ih => exact .event e ih

/-- Before what is kept there is what is lost. -/
theorem accounts_lagged (unread : List Event) (h : Accounts sights (newest n unread ++ events)) :
    Accounts (.lagged (unread.length - n) :: sights) (unread ++ events) := by
  have lost : (unread.take (unread.length - n)).length = unread.length - n :=
    List.length_take_of_le (Nat.sub_le ..)
  have all := Accounts.lagged (unread.take (unread.length - n)) h
  rw [lost, newest, ← List.append_assoc, List.take_append_drop] at all
  exact all

/-- Whoever takes everything accounts for everything. -/
theorem accounts_sights (unread : List Event) (h : Accounts sights events) :
    Accounts (Cursor.sights (newest n unread) (unread.length - n) ++ sights)
      (unread ++ events) := by
  rw [Cursor.sights]
  split
  · rename_i none
    rw [newest_of_length_le (Nat.le_of_sub_eq_zero none)]
    exact accounts_append unread h
  · exact accounts_lagged unread (accounts_append (newest n unread) h)

/-- By the time the owner of a cursor has taken everything, every event is accounted for. -/
theorem accounts_told (unread : List Event) (acts : List Observation) :
    Accounts (told n unread (acts ++ [.drain]))
      (unread ++ acts.filterMap Observation.pushed?) := by
  induction acts generalizing unread with
  | nil => exact accounts_sights unread .nil
  | cons act rest ih =>
    rw [List.cons_append]
    cases act with
    | push e =>
      have all := ih (unread ++ [e])
      rw [List.append_assoc] at all
      exact all
    | look =>
      rw [told, List.filterMap_cons_none rfl]
      split
      · exact accounts_lagged unread (ih (newest n unread))
      · have all := accounts_append (unread.take 1) (ih (unread.drop 1))
        rw [← List.append_assoc, List.take_append_drop] at all
        exact all
    | drain => exact accounts_sights unread (ih [])

/-- By the time the owner of a tap has taken everything, he has seen the history and then the events
in their order; and all of them, unless there were more than are kept. -/
theorem exists_seen (backlog unread : List Event) (acts : List Observation) :
    ∃ seen, owed n backlog unread (acts ++ [.drain]) = backlog ++ seen
      ∧ seen.Sublist (unread ++ acts.filterMap Observation.pushed?)
      ∧ (unread.length + (acts.filterMap Observation.pushed?).length ≤ n →
          seen = unread ++ acts.filterMap Observation.pushed?) := by
  induction acts generalizing backlog unread with
  | nil =>
    refine ⟨newest n unread, ?_, ?_, ?_⟩
    · exact List.append_nil _
    · rw [List.filterMap_nil, List.append_nil]
      exact List.drop_sublist ..
    · intro kept
      rw [List.filterMap_nil, List.append_nil]
      exact newest_of_length_le kept
  | cons act rest ih =>
    rw [List.cons_append]
    cases act with
    | push e =>
      obtain ⟨seen, sees, sub, all⟩ := ih backlog (unread ++ [e])
      rw [List.append_assoc] at sub all
      refine ⟨seen, by rw [owed, sees], sub, ?_⟩
      intro kept
      refine all ?_
      have pushed : (Observation.push e :: rest).filterMap Observation.pushed?
          = e :: rest.filterMap Observation.pushed? := rfl
      rw [pushed, List.length_cons] at kept
      rw [List.length_append, List.length_singleton]
      omega
    | look =>
      rw [owed, List.filterMap_cons_none rfl]
      split
      · rename_i read
        subst read
        obtain ⟨seen, sees, sub, all⟩ := ih [] ((newest n unread).drop 1)
        refine ⟨(newest n unread).take 1 ++ seen, by rw [sees]; rfl, ?_, ?_⟩
        · have split := sub.append_left ((newest n unread).take 1)
          rw [← List.append_assoc, List.take_append_drop] at split
          exact split.trans ((List.drop_sublist ..).append_right _)
        · intro kept
          rw [newest_of_length_le (by omega)] at all ⊢
          rw [all (by rw [List.length_drop]; omega), ← List.append_assoc, List.take_append_drop]
      · obtain ⟨seen, sees, sub, all⟩ := ih (backlog.drop 1) unread
        refine ⟨seen, ?_, sub, all⟩
        rw [sees, ← List.append_assoc, List.take_append_drop]
    | drain =>
      rw [owed, List.filterMap_cons_none rfl]
      obtain ⟨seen, sees, sub, all⟩ := ih [] []
      refine ⟨newest n unread ++ seen, ?_, ?_, ?_⟩
      · rw [sees, List.append_assoc]
        rfl
      · exact (List.drop_sublist ..).append sub
      · intro kept
        rw [newest_of_length_le (by omega), all (by rw [List.length_nil]; omega)]
        rfl

end Accounts

/-! ## The observers of a log -/

/-- A log keeps its newest events in their order, up to its capacity. Whoever begins to observe it,
at whatever time, sees what has been specified for him: the owner of a tap the history and then
what is pushed later, less the oldest of it whenever more is unread than a window; the owner of a
cursor also how many are missing at that place, so that each time he has taken everything, the
events that were delivered and those that were lost make up what was pushed. -/
theorem observers_see_what_is_kept (capacity : Nat) (before : List Event)
    (acts : List Observation) :
    let log := ({ capacity } : EventLog).pushAll before
    let later := acts.filterMap Observation.pushed?
    (log.history <:+ before ∧ log.history.length = min capacity before.length)
      ∧ IsLeast {n | max capacity 16 ≤ n ∧ ∃ k, n = 2 ^ k} log.window
      ∧ log.tap.watch log acts = owed log.window log.history [] acts
      ∧ (∃ seen, log.tap.watch log (acts ++ [.drain]) = log.history ++ seen
          ∧ seen.Sublist later ∧ (later.length ≤ log.window → seen = later))
      ∧ log.cursor.watch log acts = told log.window [] acts
      ∧ Accounts (log.cursor.watch log (acts ++ [.drain])) later
      ∧ ((log.cursor.watch log (acts ++ [.drain])).filterMap Cursor.Sight.event?).length
          + ((log.cursor.watch log (acts ++ [.drain])).map Cursor.Sight.lost).sum
          = later.length := by
  intro log later
  obtain ⟨keeps, same⟩ := EventLog.keeps_pushAll capacity before
  have start : log.pushed ≤ before.length := Nat.le_of_eq keeps.pushed
  have nothing : Cursor.unread ⟨log.pushed⟩ before = [] :=
    List.drop_eq_nil_of_le (Nat.le_of_eq keeps.pushed.symm)
  have tap (acts : List Observation) :
      log.tap.watch log acts = owed log.window log.history [] acts := by
    rw [← nothing]
    exact Tap.watch_eq keeps start acts
  have cursor (acts : List Observation) :
      log.cursor.watch log acts = told log.window [] acts := by
    rw [← nothing]
    exact Cursor.watch_eq keeps start acts
  have accounts : Accounts (log.cursor.watch log (acts ++ [.drain])) later := by
    rw [cursor]
    exact accounts_told [] acts
  refine ⟨⟨?_, ?_⟩, ?_, tap acts, ?_, cursor acts, accounts, accounts.length_eq⟩
  · rw [keeps.history]
    exact List.drop_suffix ..
  · rw [keeps.history, length_newest, same]
  · rw [EventLog.window, same]
    exact isLeast_powerOfTwoAbove _
  · obtain ⟨seen, sees, sub, all⟩ := exists_seen (n := log.window) log.history [] acts
    refine ⟨seen, (tap _).trans sees, sub, ?_⟩
    intro kept
    exact all ((Nat.zero_add _).trans_le kept)

end CastHub
