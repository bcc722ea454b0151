import CastHub.Proofs.Recency
import Mathlib.Data.List.DropRight
/-!
# The most recent reports, each once

What a sender remembers is a function of all the reports that it has ever made: of each compact time
the one that was made last, in the order in which these were made, and of them the last five. So a
report that is made again neither leaves a stale one behind nor drives out another.

* `Sender.latest` : of each compact time the report that was made last, with `latest_append` for one
  report more and `latest_split` for what stands around one of them;
* `Sender.remember_rtake` : remembering one report more and forgetting those in front go together;
* `Sender.reports_eq` : what a sender remembers after a run;
* `Sender.LastBefore` : the order in which reports were made for the last time;
* `Sender.remembers_the_latest` : the law for a sender, its look-ups included.
-/

namespace CastHub.Rtcp

namespace Sender

variable {made : List SentReport} {r : SentReport}

/-! ## Each compact time once -/

/-- Of each compact time the report that was made last, in the order in which these were made. -/
def latest (made : List SentReport) : List SentReport := made.pwFilter (·.stamp ≠ ·.stamp)

/-- A report is kept exactly if none of its compact time follows. -/
theorem latest_cons (r : SentReport) (rest : List SentReport) :
    latest (r :: rest)
      = if ∀ o ∈ rest, r.stamp ≠ o.stamp then r :: latest rest else latest rest := by
  have kept : (∀ o ∈ latest rest, r.stamp ≠ o.stamp) ↔ ∀ o ∈ rest, r.stamp ≠ o.stamp := by
    apply List.forall_mem_pwFilter
    intro x y z differ
    by_cases same : x.stamp = y.stamp
    · exact .inr (same ▸ differ)
    · exact .inl same
  by_cases last : ∀ o ∈ rest, r.stamp ≠ o.stamp
  · rw [if_pos last]
    exact List.pwFilter_cons_of_pos (kept.2 last)
  · rw [if_neg last]
    exact List.pwFilter_cons_of_neg (mt kept.1 last)

/-- One report more takes the place of the one of its compact time, and stands at the end. -/
theorem latest_append (made : List SentReport) (r : SentReport) :
    latest (made ++ [r]) = (latest made).filter (·.stamp ≠ r.stamp) ++ [r] := by
  induction made with
  | nil => rfl
  | cons first rest ih =>
    rw [List.cons_append, latest_cons, latest_cons, ih]
    simp only [List.forall_mem_append, List.forall_mem_singleton]
    by_cases same : first.stamp = r.stamp
    · -- the first report is forgotten either way
      rw [if_neg fun last => last.2 same]
      split
      · rw [List.filter_cons_of_neg (by simpa using same)]
      · rfl
    · by_cases last : ∀ o ∈ rest, first.stamp ≠ o.stamp
      · rw [if_pos ⟨last, same⟩, if_pos last, List.filter_cons_of_pos (by simpa using same)]
        rfl
      · rw [if_neg fun both => last both.1, if_neg last]

/-- What stands around a report that was made for the last time: in front others, and behind it
those that were made since, each once. -/
theorem latest_split (front : List SentReport) {r : SentReport} {back : List SentReport}
    (last : ∀ o ∈ back, o.stamp ≠ r.stamp) : ∃ older, latest (front ++ r :: back)
      = older ++ r :: latest back ∧ ∀ o ∈ older, o.stamp ≠ r.stamp := by
  induction front with
  | nil =>
    refine ⟨[], ?_, nofun⟩
    rw [List.nil_append, latest_cons, if_pos fun o mem => (last o mem).symm]
    rfl
  | cons first rest ih =>
    obtain ⟨older, eq, apart⟩ := ih
    rw [List.cons_append, latest_cons, eq]
    split
    · rename_i kept
      have differs : first.stamp ≠ r.stamp := kept r (by simp)
      exact ⟨first :: older, rfl, List.forall_mem_cons.2 ⟨differs, apart⟩⟩
    · exact ⟨older, rfl, apart⟩

theorem pairwise_latest (made : List SentReport) :
    (latest made).Pairwise (·.stamp ≠ ·.stamp) := List.pairwise_pwFilter made

theorem nodup_latest (made : List SentReport) : ((latest made).map (·.stamp)).Nodup :=
  List.pairwise_map.2 (pairwise_latest made)

/-- The compact times of which a report was made, each counted once. -/
theorem length_latest (made : List SentReport) :
    (latest made).length = (made.map (·.stamp)).toFinset.card := by
  have stamps : (made.map (·.stamp)).dedup = (latest made).map (·.stamp) :=
    List.pwFilter_map SentReport.stamp made
  rw [List.card_toFinset, stamps, List.length_map]

theorem latest_subset (made : List SentReport) : latest made ⊆ made := List.pwFilter_subset made

/-! ## The last five of them -/

/-- The end of a list does not depend on what stands in front of it. -/
theorem rtake_append {α : Type} {n : Nat} (front : List α) {back : List α}
    (enough : n ≤ back.length) :
    (front ++ back).rtake n = back.rtake n := by
  unfold List.rtake
  have beyond : front.length ≤ (front ++ back).length - n := by
    rw [List.length_append]
    omega
  have rest : (front ++ back).length - n - front.length = back.length - n := by
    rw [List.length_append]
    omega
  rw [List.drop_append, List.drop_eq_nil_of_le beyond, rest, List.nil_append]

/-- At most one of several different reports has a given compact time. -/
theorem length_le_filter {reports : List SentReport} (once : reports.Pairwise (·.stamp ≠ ·.stamp))
    (stamp : UInt32) : reports.length ≤ (reports.filter (·.stamp ≠ stamp)).length + 1 := by
  induction reports with
  | nil => exact Nat.zero_le _
  | cons first rest ih =>
    obtain ⟨apart, once⟩ := List.pairwise_cons.1 once
    by_cases same : first.stamp = stamp
    · -- no other report has it
      have others : rest.filter (·.stamp ≠ stamp) = rest := by
        apply List.filter_eq_self.2
        intro o mem
        simpa [same] using (apart o mem).symm
      rw [List.filter_cons_of_neg (by simpa using same), others, List.length_cons]
    · rw [List.filter_cons_of_pos (by simpa using same), List.length_cons, List.length_cons]
      have := ih once
      omega

/-- It makes no difference whether reports are forgotten before or after one more is made. -/
theorem remember_rtake {reports : List SentReport} (once : reports.Pairwise (·.stamp ≠ ·.stamp))
    (r : SentReport) : remember (reports.rtake historyLength) r
      = (reports.filter (·.stamp ≠ r.stamp) ++ [r]).rtake historyLength := by
  show (_ ++ [r]).rtake 5 = (_ ++ [r]).rtake 5
  rw [List.rtake_concat_succ, List.rtake_concat_succ]
  congr 1
  have split : reports = reports.rdrop historyLength ++ reports.rtake historyLength :=
    (List.take_append_drop _ _).symm
  rcases Nat.lt_or_ge reports.length historyLength with few | many
  · -- nothing has been forgotten
    have whole : reports.rtake historyLength = reports := by
      unfold List.rtake
      rw [Nat.sub_eq_zero_of_le (Nat.le_of_lt few), List.drop_zero]
    rw [whole]
  · have five : (reports.rtake historyLength).length = 5 := by
      unfold List.rtake
      rw [List.length_drop]
      have : historyLength = 5 := rfl
      omega
    have kept := length_le_filter (once.sublist (List.drop_sublist _ _) :
      (reports.rtake historyLength).Pairwise (·.stamp ≠ ·.stamp)) r.stamp
    conv_rhs => rw [split, List.filter_append]
    rw [rtake_append _ (by omega)]

/-- What a sender remembers of the reports that it made: of each compact time the last one, and of
these the last five. -/
theorem foldl_remember (made : List SentReport) :
    made.foldl remember [] = (latest made).rtake historyLength := by
  induction made using List.reverseRecOn with
  | nil => rfl
  | append_singleton made r ih =>
    rw [List.foldl_concat, ih, latest_append]
    exact remember_rtake (pairwise_latest made) r

theorem reports_eq (events : List Event) : (({} : Sender).after events).reports
    = (latest (({} : Sender).sent events)).rtake historyLength := by
  rw [reports_after]
  exact foldl_remember _

/-! ## Looking a report up -/

/-- Every compact time of which a report was made has a last one. -/
theorem exists_last {stamp : UInt32} (some : ∃ o ∈ made, o.stamp = stamp) :
    ∃ front last back, made = front ++ last :: back ∧ last.stamp = stamp
      ∧ ∀ o ∈ back, o.stamp ≠ stamp := by
  induction made with
  | nil =>
    obtain ⟨o, mem, -⟩ := some
    cases mem
  | cons first rest ih =>
    by_cases later : ∃ o ∈ rest, o.stamp = stamp
    · obtain ⟨front, last, back, rfl, same, apart⟩ := ih later
      exact ⟨first :: front, last, back, rfl, same, apart⟩
    · push Not at later
      obtain ⟨o, mem, same⟩ := some
      rcases List.mem_cons.1 mem with rfl | behind
      · exact ⟨[], o, rest, rfl, same, later⟩
      · exact absurd same (later o behind)

variable {s : Sender}

/-- The last report of its compact time is found exactly until five different others have been
made. -/
theorem sentAt?_of_last {front back : List SentReport}
    (memory : s.reports = (latest (front ++ r :: back)).rtake historyLength)
    (last : ∀ o ∈ back, o.stamp ≠ r.stamp) : s.sentAt? r.stamp
      = if (back.map (·.stamp)).toFinset.card < historyLength then some r.sentMs else none := by
  obtain ⟨older, eq, apart⟩ := latest_split front last
  rw [eq] at memory
  rw [← length_latest]
  split
  · rename_i few
    -- the oldest are forgotten, but not the report itself
    have spare : (older ++ r :: latest back).length - historyLength ≤ older.length := by
      rw [List.length_append, List.length_cons]
      omega
    unfold List.rtake at memory
    rw [List.drop_append_of_le_length spare] at memory
    have recalls : Recalls s.reports r (back.map (·.stamp)).toFinset := by
      refine ⟨_, latest back, memory, fun o mem => ?_, nodup_latest back, fun o mem => ?_⟩
      · exact apart o (List.drop_subset _ _ mem)
      · exact List.mem_toFinset.2 (List.mem_map_of_mem (latest_subset back mem))
    exact recalls.sentAt?
  · rename_i many
    -- only reports that were made since are left
    rw [List.append_cons, rtake_append _ (Nat.le_of_not_lt many)] at memory
    have forgotten : s.reports.find? (·.stamp = r.stamp) = none := by
      rw [List.find?_eq_none]
      intro o mem
      rw [memory] at mem
      simpa using last o (latest_subset back (List.drop_subset _ _ mem))
    rw [sentAt?, forgotten]
    rfl

/-- A look-up finds the time at which a report was made for the last time, if fewer than five
different others have been made since. -/
theorem sentAt?_eq_some_iff (memory : s.reports = (latest made).rtake historyLength)
    {stamp : UInt32} {time : UInt64} : s.sentAt? stamp = some time ↔
      ∃ before after, made = before ++ ⟨stamp, time⟩ :: after ∧ (∀ o ∈ after, o.stamp ≠ stamp)
        ∧ (after.map (·.stamp)).toFinset.card < historyLength := by
  constructor
  · intro found
    obtain ⟨r, isFound, -⟩ := Option.map_eq_some_iff.1 found
    have remembered : r ∈ s.reports := List.mem_of_find?_eq_some isFound
    rw [memory] at remembered
    have isStamp : r.stamp = stamp := by simpa using List.find?_some isFound
    obtain ⟨front, last, back, rfl, rfl, apart⟩ :=
      exists_last ⟨r, latest_subset made (List.drop_subset _ _ remembered), isStamp⟩
    rw [sentAt?_of_last memory apart] at found
    split at found
    · rename_i few
      obtain rfl := Option.some.inj found
      exact ⟨front, back, rfl, apart, few⟩
    · cases found
  · rintro ⟨before, after, rfl, apart, few⟩
    exact (sentAt?_of_last memory apart).trans (if_pos few)

/-! ## The order -/

/-- The compact time of one report was used for the last time before that of another one was. -/
def LastBefore (made : List SentReport) (a b : SentReport) : Prop :=
  ∃ before after, made = before ++ a :: after ∧ (∀ o ∈ after, o.stamp ≠ a.stamp)
    ∧ ∃ o ∈ after, o.stamp = b.stamp

theorem LastBefore.cons {a b : SentReport} (h : LastBefore made a b) (first : SentReport) :
    LastBefore (first :: made) a b := by
  obtain ⟨before, after, rfl, apart, later⟩ := h
  exact ⟨first :: before, after, rfl, apart, later⟩

theorem pairwise_lastBefore (made : List SentReport) :
    (latest made).Pairwise (LastBefore made) := by
  induction made with
  | nil => exact List.Pairwise.nil
  | cons first rest ih =>
    have on : (latest rest).Pairwise (LastBefore (first :: rest)) := ih.imp fun h => h.cons first
    rw [latest_cons]
    split
    · rename_i last
      refine List.pairwise_cons.2 ⟨fun b mem => ?_, on⟩
      exact ⟨[], rest, rfl, fun o mem => (last o mem).symm, b, latest_subset rest mem, rfl⟩
    · exact on

/-- **A sender remembers the five most recent reports.** Whatever has happened to it, it remembers
at most five reports, no two of the same compact time, in the order in which these were used for the
last time. A look-up finds a report of a compact time exactly if one was made and fewer than five
different others have been made since the last such one, and then it finds the time of that one.
The compact time of a report is that of the time stamp in it, and the time that of the clock when it
is made. What a sender hears never changes what it remembers. -/
theorem remembers_the_latest (events : List Event) :
    let s := ({} : Sender).after events
    let made := ({} : Sender).sent events
    s.reports.length ≤ 5
      ∧ (s.reports.map (·.stamp)).Nodup
      ∧ s.reports.Pairwise (LastBefore made)
      ∧ (∀ stamp time, s.sentAt? stamp = some time ↔
          ∃ before after, made = before ++ ⟨stamp, time⟩ :: after ∧ (∀ o ∈ after, o.stamp ≠ stamp)
            ∧ (after.map (·.stamp)).toFinset.card < 5)
      ∧ (∀ ssrc now, s.made (.report ssrc now) = [⟨(s.report ssrc now).1.ntp.compact, now⟩])
      ∧ ∀ p now, (s.onPacket p now).reports = s.reports := by
  intro s made
  have memory : s.reports = (latest made).rtake historyLength := reports_eq events
  have part : s.reports.Sublist (latest made) := memory ▸ List.drop_sublist _ _
  refine ⟨?_, (nodup_latest made).sublist (part.map _), (pairwise_lastBefore made).sublist part,
    fun stamp time => sentAt?_eq_some_iff memory, fun ssrc now => rfl,
    fun p now => reports_onPacket p now⟩
  rw [memory, List.rtake, List.length_drop]
  have : historyLength = 5 := rfl
  omega

/-- Reports of six different compact times are made, each later than the one before, but that of the
first one is made again before the sixth: then it is the second one that is forgotten. -/
example : (((({} : Sender).after ([0, 1000, 2000, 3000, 4000, 0, 5000].flatMap fun ms =>
      [.media ⟨1, 0, ms, 90000, 100⟩, .report 7 (ms + 1)])).reports).map (·.sentMs))
    = [2001, 3001, 4001, 1, 5001] := by decide

end Sender

end CastHub.Rtcp
