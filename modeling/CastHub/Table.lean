/-!
# Tables

A `Table` is a list of keyed entries whose keys rise strictly (`Table.Sorted`). The three operations
and what they do to lookups:

* `put` sets one entry: `get?_put`;
* `erase` drops one: `get?_erase`;
* `get?` looks one up.

`put` and `erase` keep a table sorted. Objects of JSON, the contexts of a hub and the agents of a
context are tables, so walking through any of them goes by rising key.
-/

namespace CastHub

/-- Keyed entries. -/
abbrev Table (κ α : Type) := List (κ × α)

namespace Table

variable {κ α : Type} [DecidableEq κ]

/-- The value of the entry with a given key. -/
def get? (table : Table κ α) (key : κ) : Option α :=
  match table with
  | [] => none
  | (k, v) :: rest => if key = k then some v else get? rest key

/-- Whether there is an entry with a given key. -/
def has (table : Table κ α) (key : κ) : Bool := (table.get? key).isSome

/-- Drops the entry with a given key. -/
def erase (table : Table κ α) (key : κ) : Table κ α := table.filter (·.1 ≠ key)

/-- The values, by rising key. -/
def values (table : Table κ α) : List α := table.map (·.2)

variable [LT κ] [DecidableLT κ]

/-- Sets an entry: replaces it where it stands, or puts it before the first greater key. -/
def put (key : κ) (value : α) : Table κ α → Table κ α
  | [] => [(key, value)]
  | (k, v) :: rest =>
    if key < k then (key, value) :: (k, v) :: rest
    else if key = k then (key, value) :: rest
    else (k, v) :: put key value rest

/-- Changes the value of an entry, if it is there. -/
def update (table : Table κ α) (key : κ) (f : α → α) : Table κ α :=
  match table.get? key with
  | none => table
  | some value => table.put key (f value)

/-- The keys rise strictly. -/
def Sorted (table : Table κ α) : Prop := table.Pairwise fun a b => a.1 < b.1

/-- Every entry of the result is the new one or an old one. -/
theorem mem_put {key : κ} {value : α} {table : Table κ α} {e : κ × α}
    (h : e ∈ put key value table) : e = (key, value) ∨ e ∈ table := by
  induction table with
  | nil => simp only [put, List.mem_singleton] at h; exact .inl h
  | cons head rest ih =>
    simp only [put] at h
    split at h
    · rcases List.mem_cons.1 h with h | h
      · exact .inl h
      · exact .inr h
    · split at h
      · rcases List.mem_cons.1 h with h | h
        · exact .inl h
        · exact .inr (List.mem_cons_of_mem _ h)
      · rcases List.mem_cons.1 h with h | h
        · exact .inr (h ▸ List.mem_cons_self ..)
        · exact (ih h).imp_right (List.mem_cons_of_mem _)

omit [LT κ] [DecidableLT κ] in
/-- What is found is an entry. -/
theorem mem_of_get? {key : κ} {value : α} {table : Table κ α} (h : get? table key = some value) :
    (key, value) ∈ table := by
  induction table with
  | nil => cases h
  | cons head rest ih =>
    obtain ⟨k, v⟩ := head
    simp only [get?] at h
    split at h
    · rename_i same
      rw [same, Option.some.inj h]
      exact List.mem_cons_self ..
    · exact List.mem_cons_of_mem _ (ih h)

/-- An entry that was set is found with its new value, and every other key is found as before. -/
theorem get?_put {key other : κ} {value : α} {table : Table κ α} :
    get? (put key value table) other = if other = key then some value else get? table other := by
  induction table with
  | nil => rfl
  | cons head rest ih =>
    obtain ⟨k, v⟩ := head
    simp only [put]
    split
    · rfl
    · split
      · rename_i same
        subst same
        by_cases e : other = key <;> simp [get?, e]
      · rename_i apart
        by_cases e : other = k
        · subst e
          simp [get?, Ne.symm apart]
        · simp only [get?, e, if_false, ih]

omit [LT κ] [DecidableLT κ] in
/-- A dropped key is not found, and every other key is found as before. -/
theorem get?_erase {key other : κ} {table : Table κ α} :
    get? (erase table key) other = if other = key then none else get? table other := by
  induction table with
  | nil => simp [erase, get?]
  | cons head rest ih =>
    obtain ⟨k, v⟩ := head
    unfold erase at ih ⊢
    by_cases gone : k = key
    · subst gone
      rw [List.filter_cons_of_neg (by simp), ih]
      by_cases e : other = k <;> simp [get?, e]
    · rw [List.filter_cons_of_pos (by simp [gone]), get?, get?, ih]
      by_cases e : other = k
      · subst e
        simp [gone]
      · simp [e]

/-- Setting an entry twice is setting it once, to the later value. -/
theorem put_put [Std.Irrefl (α := κ) (· < ·)] {key : κ} {first second : α} {table : Table κ α} :
    put key second (put key first table) = put key second table := by
  induction table with
  | nil => simp [put, Std.lt_irrefl]
  | cons head rest ih =>
    obtain ⟨k, v⟩ := head
    simp only [put]
    split
    · simp [put, Std.lt_irrefl]
    · split
      · simp [put, Std.lt_irrefl]
      · simp [put, *]

/-- Setting an entry keeps a table sorted. -/
theorem sorted_put [Trans (α := κ) (· < ·) (· < ·) (· < ·)] [Std.Trichotomous (α := κ) (· < ·)]
    {key : κ} {value : α} {table : Table κ α} (h : Sorted table) :
    Sorted (put key value table) := by
  induction table with
  | nil => exact List.pairwise_singleton _ _
  | cons head rest ih =>
    obtain ⟨k, v⟩ := head
    have tail := List.pairwise_cons.1 h
    simp only [put]
    split
    · rename_i below
      refine List.pairwise_cons.2 ⟨fun e he => ?_, h⟩
      rcases List.mem_cons.1 he with rfl | he
      · exact below
      · exact Std.lt_trans below (tail.1 e he)
    · rename_i notBelow
      split
      · rename_i same
        subst same
        exact List.pairwise_cons.2 ⟨tail.1, tail.2⟩
      · rename_i apart
        refine List.pairwise_cons.2 ⟨fun e he => ?_, ih tail.2⟩
        rcases mem_put he with rfl | he
        · exact Decidable.byContradiction fun notAbove =>
            apart (Std.Trichotomous.trichotomous _ _ notBelow notAbove)
        · exact tail.1 e he

omit [DecidableLT κ] in
/-- Dropping an entry keeps a table sorted. -/
theorem sorted_erase {key : κ} {table : Table κ α} (h : Sorted table) : Sorted (erase table key) :=
  List.Pairwise.filter _ h

end Table

end CastHub
