import CastHub.Table
import Mathlib.Data.List.Perm.Basic
/-!
# More about tables

A sorted table is determined by what is found in it, up to the order of its entries:

* `Table.get?_of_mem` : the entries of a sorted table are what lookups find;
* `Table.ext_of_sorted` : two sorted tables are the same if the same is found in them;
* `Table.perm_put`, `Table.perm_put_erase`, `Table.perm_erase` : what `put` and `erase` do to the
  entries, in any order;
* `Table.mapValues` changes every value and commutes with the other operations.
-/

namespace CastHub

namespace Table

variable {κ α β : Type} [DecidableEq κ]

/-- A table without a key finds nothing there. -/
theorem get?_eq_none {key : κ} {table : Table κ α} (h : ∀ e ∈ table, e.1 ≠ key) :
    get? table key = none := by
  induction table with
  | nil => rfl
  | cons head rest ih =>
    obtain ⟨k, v⟩ := head
    have apart : key ≠ k := Ne.symm (h (k, v) (List.mem_cons_self ..))
    rw [get?, if_neg apart]
    exact ih fun e he => h e (List.mem_cons_of_mem _ he)

/-- Dropping a key that is not there changes nothing. -/
theorem erase_of_get?_eq_none {key : κ} {table : Table κ α} (h : get? table key = none) :
    erase table key = table := by
  induction table with
  | nil => rfl
  | cons head rest ih =>
    obtain ⟨k, v⟩ := head
    rw [get?] at h
    split at h
    · cases h
    · rename_i apart
      have kept := ih h
      unfold erase at kept ⊢
      rw [List.filter_cons_of_pos (by simp [Ne.symm apart]), kept]

/-! ## Changing every value -/

/-- Changes every value. -/
def mapValues (f : α → β) (table : Table κ α) : Table κ β := table.map fun e => (e.1, f e.2)

omit [DecidableEq κ] in
@[simp] theorem length_mapValues (f : α → β) (table : Table κ α) :
    (mapValues f table).length = table.length := List.length_map ..

@[simp] theorem get?_mapValues (f : α → β) (table : Table κ α) (key : κ) :
    get? (mapValues f table) key = (get? table key).map f := by
  induction table with
  | nil => rfl
  | cons head rest ih =>
    obtain ⟨k, v⟩ := head
    rw [mapValues, List.map_cons, get?, get?, ← mapValues, ih]
    split <;> rfl

theorem mapValues_erase (f : α → β) (table : Table κ α) (key : κ) :
    mapValues f (erase table key) = erase (mapValues f table) key := by
  unfold mapValues erase
  rw [List.filter_map]
  rfl

theorem get?_of_get?_erase {gone key : κ} {value : α} {table : Table κ α}
    (there : get? (erase table gone) key = some value) : get? table key = some value := by
  rw [get?_erase] at there
  split at there
  · cases there
  · exact there

variable [LT κ]

omit [DecidableEq κ] in
theorem sorted_mapValues {f : α → β} {table : Table κ α} :
    Sorted (mapValues f table) ↔ Sorted table := by
  unfold Sorted mapValues
  exact List.pairwise_map

variable [DecidableLT κ]

theorem mapValues_put (f : α → β) (key : κ) (value : α) (table : Table κ α) :
    mapValues f (put key value table) = put key (f value) (mapValues f table) := by
  induction table with
  | nil => rfl
  | cons head rest ih =>
    obtain ⟨k, v⟩ := head
    show _ = put key (f value) ((k, f v) :: mapValues f rest)
    rw [put, put]
    split
    · rfl
    · split
      · rfl
      · rw [← ih]
        rfl

/-- An entry that was set and dropped leaves what the others are. -/
theorem erase_put (key : κ) (value : α) (table : Table κ α) :
    erase (put key value table) key = erase table key := by
  unfold erase
  induction table with
  | nil => simp [put]
  | cons head rest ih =>
    obtain ⟨k, v⟩ := head
    rw [put]
    split
    · exact List.filter_cons_of_neg (by simp)
    · split
      · rename_i same
        rw [List.filter_cons_of_neg (by simp), List.filter_cons_of_neg (by simp [same])]
      · rw [List.filter_cons, List.filter_cons, ih]

theorem mapValues_update {f : α → β} {g : α → α} {h : β → β} {key : κ} {table : Table κ α}
    (same : ∀ value, get? table key = some value → f (g value) = h (f value)) :
    mapValues f (update table key g) = update (mapValues f table) key h := by
  unfold update
  rw [get?_mapValues]
  cases found : get? table key with
  | none => rfl
  | some value => rw [Option.map_some, mapValues_put, same value found]

/-! ## Updates -/

/-- Whatever is found after an entry was set is that entry, or was there before. -/
theorem get?_put_cases {key other : κ} {value found : α} {table : Table κ α}
    (there : get? (put key value table) other = some found) :
    (other = key ∧ found = value) ∨ get? table other = some found := by
  rw [get?_put] at there
  split at there
  · exact .inl ⟨‹_›, (Option.some.inj there).symm⟩
  · exact .inr there

/-- Whatever was there is still found after a new entry was set. -/
theorem get?_put_of_new {key other : κ} {value found : α} {table : Table κ α}
    (new : get? table key = none) (here : get? table other = some found) :
    get? (put key value table) other = some found := by
  rw [get?_put, if_neg, here]
  rintro rfl
  rw [new] at here
  cases here

theorem get?_update {key other : κ} {f : α → α} {table : Table κ α} :
    get? (update table key f) other
      = if other = key then (get? table other).map f else get? table other := by
  unfold update
  by_cases same : other = key
  · subst same
    cases found : get? table other with
    | none => simp [found]
    | some value => simp [get?_put]
  · cases get? table key with
    | none => simp [same]
    | some value => simp [get?_put, same]

/-! ## Sorted tables -/

section Sorted

variable [Std.Irrefl (α := κ) (· < ·)] [Trans (α := κ) (· < ·) (· < ·) (· < ·)]

omit [DecidableLT κ] [Trans (α := κ) (· < ·) (· < ·) (· < ·)] in
theorem get?_of_mem {key : κ} {value : α} {table : Table κ α} (h : Sorted table)
    (mem : (key, value) ∈ table) : get? table key = some value := by
  induction table with
  | nil => cases mem
  | cons head rest ih =>
    obtain ⟨k, v⟩ := head
    obtain ⟨above, tail⟩ := List.pairwise_cons.1 h
    rw [get?]
    rcases List.mem_cons.1 mem with same | later
    · obtain ⟨rfl, rfl⟩ := Prod.mk.inj same
      exact if_pos rfl
    · have apart : key ≠ k := by
        rintro rfl
        exact Std.lt_irrefl (above (key, value) later)
      rw [if_neg apart]
      exact ih tail later

omit [Std.Irrefl (α := κ) (· < ·)] [Trans (α := κ) (· < ·) (· < ·) (· < ·)] in
/-- A new entry is one more entry. -/
theorem perm_put {key : κ} {value : α} {table : Table κ α} (h : get? table key = none) :
    (put key value table).Perm ((key, value) :: table) := by
  induction table with
  | nil => exact List.Perm.refl _
  | cons head rest ih =>
    obtain ⟨k, v⟩ := head
    rw [get?] at h
    split at h
    · cases h
    · rename_i apart
      rw [put]
      split
      · exact List.Perm.refl _
      · exact ((ih h).cons _).trans (List.Perm.swap ..)

omit [DecidableLT κ] [Trans (α := κ) (· < ·) (· < ·) (· < ·)] in
/-- A dropped entry is one entry less. -/
theorem perm_erase {key : κ} {value : α} {table : Table κ α} (h : Sorted table)
    (found : get? table key = some value) : table.Perm ((key, value) :: erase table key) := by
  induction table with
  | nil => cases found
  | cons head rest ih =>
    obtain ⟨k, v⟩ := head
    obtain ⟨above, tail⟩ := List.pairwise_cons.1 h
    rw [get?] at found
    split at found
    · rename_i same
      obtain rfl := Option.some.inj found
      subst same
      -- the keys rise, so the entry stands nowhere else
      have gone : get? rest key = none := get?_eq_none fun e he same => by
        have below : key < e.1 := above e he
        rw [same] at below
        exact Std.lt_irrefl below
      have kept := erase_of_get?_eq_none gone
      unfold erase at kept ⊢
      rw [List.filter_cons_of_neg (by simp), kept]
    · rename_i apart
      have kept := ih tail found
      unfold erase at kept ⊢
      rw [List.filter_cons_of_pos (by simp [Ne.symm apart])]
      exact (kept.cons _).trans (List.Perm.swap ..)

/-- Setting an entry is dropping the one of its key and adding the new one. -/
theorem perm_put_erase [Std.Trichotomous (α := κ) (· < ·)] {key : κ} {value : α}
    {table : Table κ α} (h : Sorted table) :
    (put key value table).Perm ((key, value) :: erase table key) := by
  have found : get? (put key value table) key = some value := by rw [get?_put, if_pos rfl]
  rw [← erase_put key value table]
  exact perm_erase (sorted_put h) found

/-- Setting an entry that is there makes a table no longer. -/
theorem length_put_of_get? [Std.Trichotomous (α := κ) (· < ·)] {key : κ} {value old : α}
    {table : Table κ α} (h : Sorted table) (found : get? table key = some old) :
    (put key value table).length = table.length := by
  rw [(perm_put_erase h).length_eq, (perm_erase h found).length_eq]
  rfl

/-- Setting an entry to what it is changes nothing. -/
theorem put_self {key : κ} {value : α} {table : Table κ α} (h : Sorted table)
    (found : get? table key = some value) : put key value table = table := by
  induction table with
  | nil => cases found
  | cons head rest ih =>
    obtain ⟨k, v⟩ := head
    obtain ⟨above, tail⟩ := List.pairwise_cons.1 h
    rw [get?] at found
    rw [put]
    split at found
    · rename_i same
      obtain rfl := Option.some.inj found
      subst same
      rw [if_neg Std.lt_irrefl, if_pos rfl]
    · rename_i apart
      -- the entry stands further on, so its key is above this one
      have notBelow : ¬ key < k := fun below =>
        Std.lt_irrefl (Std.lt_trans below (above (key, value) (mem_of_get? found)))
      rw [if_neg notBelow, if_neg apart, ih tail found]

omit [DecidableLT κ] in
/-- A sorted table is determined by what is found in it. -/
theorem ext_of_sorted {first second : Table κ α} (h : Sorted first) (h' : Sorted second)
    (same : ∀ key, get? first key = get? second key) : first = second := by
  have nodup : ∀ {table : Table κ α}, Sorted table → table.Nodup := by
    intro table sorted
    refine List.Pairwise.imp ?_ sorted
    intro a b below same
    exact Std.lt_irrefl (same ▸ below)
  have members : ∀ e, e ∈ first ↔ e ∈ second := fun e =>
    ⟨fun mem => mem_of_get? (same e.1 ▸ get?_of_mem h mem),
      fun mem => mem_of_get? ((same e.1).symm ▸ get?_of_mem h' mem)⟩
  have perm := (List.perm_ext_iff_of_nodup (nodup h) (nodup h')).2 members
  refine perm.eq_of_pairwise (fun a b _ _ below above => ?_) h h'
  exact absurd (Std.lt_trans below above) Std.lt_irrefl

/-- Entries with different keys may be set in either order. -/
theorem put_comm [Std.Trichotomous (α := κ) (· < ·)] {key other : κ} (apart : key ≠ other)
    {value value' : α} {table : Table κ α} (h : Sorted table) :
    put key value (put other value' table) = put other value' (put key value table) := by
  refine ext_of_sorted (sorted_put (sorted_put h)) (sorted_put (sorted_put h)) fun k => ?_
  rw [get?_put, get?_put, get?_put, get?_put]
  by_cases isKey : k = key
  · rw [if_pos isKey, if_neg (isKey ▸ apart), if_pos isKey]
  · rw [if_neg isKey, if_neg isKey]

end Sorted

end Table

end CastHub
