import CastHub.Rtcp.Sender
import Mathlib.Data.Finset.Card
/-!
# Which reports a sender remembers

A sender is asked for reports again and again, and remembers five. A report that it makes again (for
the same compact time) takes the place of the earlier one, so a report is forgotten only when five
*different* ones have been made after it. Here is the half of this that a round trip needs: a report
after which at most four others have been made, each as often as it likes, is found with the time
at which it was sent.

* `Sender.Event`, `Sender.after` : what may happen to a sender, and a run of it;
* `Sender.reports_after` : of all that happens, only the reports it makes change its memory;
* `Sender.remember_append` : what few others stand behind is not moved by one more;
* `Sender.Recalls` : the invariant, with `recalls_remember` for the beginning, `Recalls.remember`
  for one report and `Recalls.foldl` for a run of them;
* `Sender.sentAt?_after` : the report is found.
-/

namespace CastHub.Rtcp

namespace Sender

/-! ## Runs of a sender -/

/-- What may happen to a sender. -/
inductive Event where
  | media (p : MediaPacket)
  | report (ssrc : UInt32) (now : UInt64)
  | packet (p : Packet) (now : UInt64)

/-- The compact time of the report that would be made now. -/
def stamp (s : Sender) : UInt32 := (Ntp.ofUnixMs s.counters.lastNtpMs).compact

/-- The sender after an event. -/
def step (s : Sender) : Event → Sender
  | .media p => s.onMedia p
  | .report ssrc now => (s.report ssrc now).2
  | .packet p now => s.onPacket p now

/-- The report that is made at an event, if any. -/
def made (s : Sender) : Event → List SentReport
  | .report _ now => [⟨s.stamp, now⟩]
  | .media _ | .packet .. => []

/-- The sender after a run of events. -/
def after (s : Sender) (events : List Event) : Sender := events.foldl step s

/-- The reports that are made in a run of events, the earliest first. -/
def sent (s : Sender) : List Event → List SentReport
  | [] => []
  | e :: rest => s.made e ++ (s.step e).sent rest

variable {s : Sender}

theorem reports_onItem (now : UInt64) (item : ReportItem) :
    (onItem now s item).reports = s.reports := by
  unfold onItem
  split <;> rfl

theorem reports_onBlock (ssrc : UInt32) (now : UInt64) (block : XrBlock) :
    (onBlock ssrc now s block).reports = s.reports := by
  cases block <;> rfl

theorem reports_foldl {α : Type} {f : Sender → α → Sender}
    (keep : ∀ s a, (f s a).reports = s.reports) (as : List α) :
    (as.foldl f s).reports = s.reports := by
  induction as generalizing s with
  | nil => rfl
  | cons a rest ih => rw [List.foldl_cons, ih, keep]

/-- What a sender remembers of its reports does not depend on what it hears. -/
theorem reports_onPacket (p : Packet) (now : UInt64) : (s.onPacket p now).reports = s.reports := by
  cases p with
  | sender r => rfl
  | receiver r => exact reports_foldl (fun _ item => reports_onItem now item) r.items
  | extended r => exact reports_foldl (fun _ block => reports_onBlock r.ssrc now block) r.blocks

theorem reports_step (e : Event) : (s.step e).reports = (s.made e).foldl remember s.reports := by
  cases e with
  | media p => rfl
  | report ssrc now => rfl
  | packet p now => exact reports_onPacket p now

/-- A sender remembers what it made of its reports, one after another. -/
theorem reports_after (events : List Event) :
    (s.after events).reports = (s.sent events).foldl remember s.reports := by
  induction events generalizing s with
  | nil => rfl
  | cons e rest ih =>
    rw [sent, List.foldl_append, ← reports_step]
    exact ih

/-! ## One report more -/

/-- If few others stand behind, one report more only takes from those in front. -/
theorem remember_append (older : List SentReport) {newer : List SentReport} {r : SentReport}
    (few : (newer.filter (·.stamp ≠ r.stamp)).length < historyLength) :
    ∃ kept : List SentReport, kept ⊆ older.filter (·.stamp ≠ r.stamp)
      ∧ remember (older ++ newer) r = kept ++ (newer.filter (·.stamp ≠ r.stamp) ++ [r]) := by
  let front := older.filter (·.stamp ≠ r.stamp)
  let back := newer.filter (·.stamp ≠ r.stamp) ++ [r]
  have all : (older ++ newer).filter (·.stamp ≠ r.stamp) ++ [r] = front ++ back := by
    rw [List.filter_append, List.append_assoc]
  have short : back.length ≤ historyLength := by
    rw [List.length_append]
    exact few
  have spare : (front ++ back).length - historyLength ≤ front.length := by
    rw [List.length_append]
    omega
  refine ⟨front.drop ((front ++ back).length - historyLength), List.drop_subset _ _, ?_⟩
  unfold remember
  rw [all, List.drop_append_of_le_length spare]

/-! ## A report that is remembered -/

/-- A report is remembered; those remembered since are among `others`, each once. -/
def Recalls (reports : List SentReport) (r : SentReport) (others : Finset UInt32) : Prop :=
  ∃ older newer, reports = older ++ r :: newer
    ∧ (∀ o ∈ older, o.stamp ≠ r.stamp)
    ∧ (newer.map (·.stamp)).Nodup
    ∧ ∀ n ∈ newer, n.stamp ∈ others

variable {reports : List SentReport} {r : SentReport} {others : Finset UInt32}

/-- A report that was just made is remembered. -/
theorem recalls_remember (reports : List SentReport) (r : SentReport) (others : Finset UInt32) :
    Recalls (remember reports r) r others := by
  have few : (([] : List SentReport).filter (·.stamp ≠ r.stamp)).length < historyLength :=
    Nat.succ_pos 4
  obtain ⟨kept, fromOld, eq⟩ := remember_append reports few
  rw [List.append_nil] at eq
  refine ⟨kept, [], eq, fun o mem => ?_, List.nodup_nil, fun n mem => nomatch mem⟩
  simpa using (List.mem_filter.1 (fromOld mem)).2

/-- Reports with different compact times, of which one is missing, are fewer than the compact
times there are. -/
theorem length_filter_lt {newer : List SentReport} (once : (newer.map (·.stamp)).Nodup)
    (among : ∀ n ∈ newer, n.stamp ∈ others) {stamp : UInt32} (mem : stamp ∈ others) :
    (newer.filter (·.stamp ≠ stamp)).length < others.card := by
  have once' : ((newer.filter (·.stamp ≠ stamp)).map (·.stamp)).Nodup :=
    once.sublist (List.filter_sublist.map _)
  have below : ((newer.filter (·.stamp ≠ stamp)).map (·.stamp)).toFinset ⊆ others.erase stamp := by
    intro x here
    obtain ⟨n, kept, rfl⟩ := List.mem_map.1 (List.mem_toFinset.1 here)
    obtain ⟨old, apart⟩ := List.mem_filter.1 kept
    exact Finset.mem_erase.2 ⟨by simpa using apart, among n old⟩
  have count := Finset.card_le_card below
  rw [List.toFinset_card_of_nodup once', List.length_map, Finset.card_erase_of_mem mem] at count
  have some : 0 < others.card := Finset.card_pos.2 ⟨stamp, mem⟩
  omega

/-- A report stays remembered when one of few others is made. -/
theorem Recalls.remember (h : Recalls reports r others) {other : SentReport}
    (mem : other.stamp ∈ others) (apart : r.stamp ∉ others) (few : others.card < historyLength) :
    Recalls (remember reports other) r others := by
  obtain ⟨older, newer, rfl, first, once, among⟩ := h
  have differs : r.stamp ≠ other.stamp := fun same => apart (same ▸ mem)
  have stays : (r :: newer).filter (·.stamp ≠ other.stamp)
      = r :: newer.filter (·.stamp ≠ other.stamp) :=
    List.filter_cons_of_pos (by simpa using differs)
  have fewer := length_filter_lt once among mem
  have short : ((r :: newer).filter (·.stamp ≠ other.stamp)).length < historyLength := by
    rw [stays, List.length_cons]
    omega
  obtain ⟨kept, fromOld, eq⟩ := remember_append older short
  rw [stays] at eq
  refine ⟨kept, newer.filter (·.stamp ≠ other.stamp) ++ [other], eq, ?_, ?_, ?_⟩
  · exact fun o here => first o (List.mem_filter.1 (fromOld here)).1
  · rw [List.map_append, List.map_singleton]
    refine List.Nodup.append (once.sublist (List.filter_sublist.map _)) (List.nodup_singleton _) ?_
    intro x inFront inBack
    obtain ⟨n, left, rfl⟩ := List.mem_map.1 inFront
    have isOther : n.stamp = other.stamp := List.mem_singleton.1 inBack
    simp [isOther] at left
  · intro n here
    rcases List.mem_append.1 here with left | new
    · exact among n (List.mem_filter.1 left).1
    · rw [List.mem_singleton.1 new]
      exact mem

/-- A report stays remembered when any number of reports are made that are few different ones. -/
theorem Recalls.foldl (h : Recalls reports r others) {made : List SentReport}
    (mem : ∀ m ∈ made, m.stamp ∈ others) (apart : r.stamp ∉ others)
    (few : others.card < historyLength) : Recalls (made.foldl Sender.remember reports) r others := by
  induction made generalizing reports with
  | nil => exact h
  | cons first rest ih =>
    obtain ⟨here, later⟩ := List.forall_mem_cons.1 mem
    exact ih (h.remember here apart few) later

/-- A remembered report is found, with the time at which it was sent. -/
theorem Recalls.sentAt? (h : Recalls s.reports r others) : s.sentAt? r.stamp = some r.sentMs := by
  obtain ⟨older, newer, eq, first, -⟩ := h
  have notOlder : older.find? (·.stamp = r.stamp) = none := by
    rw [List.find?_eq_none]
    intro o mem
    simpa using first o mem
  have found : s.reports.find? (·.stamp = r.stamp) = some r := by
    rw [eq, List.find?_append, notOlder, List.find?_cons_of_pos (by simp)]
    rfl
  rw [Sender.sentAt?, found]
  rfl

/-- **Recency.** A report is found, with the time at which it was sent, until it is made again or
as many different others have been made as a sender remembers. -/
theorem sentAt?_after (ssrc : UInt32) (now : UInt64) {events : List Event}
    (apart : ∀ r ∈ (s.report ssrc now).2.sent events, r.stamp ≠ s.stamp)
    (few : (((s.report ssrc now).2.sent events).map (·.stamp)).toFinset.card < historyLength) :
    ((s.report ssrc now).2.after events).sentAt? s.stamp = some now := by
  let made := (s.report ssrc now).2.sent events
  have begins : Recalls (s.report ssrc now).2.reports ⟨s.stamp, now⟩
      (made.map (·.stamp)).toFinset := recalls_remember _ _ _
  have notAgain : s.stamp ∉ (made.map (·.stamp)).toFinset := by
    intro mem
    obtain ⟨r, here, same⟩ := List.mem_map.1 (List.mem_toFinset.1 mem)
    exact apart r here same
  have among : ∀ m ∈ made, m.stamp ∈ (made.map (·.stamp)).toFinset :=
    fun m mem => List.mem_toFinset.2 (List.mem_map_of_mem mem)
  have lasts := begins.foldl among notAgain few
  rw [← reports_after] at lasts
  exact lasts.sentAt?

end Sender

end CastHub.Rtcp
