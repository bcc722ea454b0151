import CastHub.Ident
/-!
# How numbers come round

* `IdSource.rank_mint` : the numbers follow one another, and the last one is followed by the first;
* `IdSource.nodup_take` : so none is handed out twice before all of them have been, which are
  2 ^ 32 - 2;
* `IdSource.Draws` : what a source has handed out between two times that it is looked at.
-/

namespace CastHub

namespace IdSource

theorem take_add (source : IdSource) (count more : Nat) :
    source.take (count + more) = source.take count ++ (source.drop count).take more := by
  induction count generalizing source with
  | zero => rw [Nat.zero_add]; rfl
  | succ count ih =>
    rw [Nat.succ_add]
    exact congrArg (source.mint.1 :: ·) (ih source.mint.2)

theorem drop_add (source : IdSource) (count more : Nat) :
    source.drop (count + more) = (source.drop count).drop more := by
  induction count generalizing source with
  | zero => rw [Nat.zero_add]; rfl
  | succ count ih =>
    rw [Nat.succ_add]
    exact ih source.mint.2

/-! ## From the last number to the first -/

/-- How many numbers are handed out before the next one, counted from the first. -/
def rank (source : IdSource) : Nat := source.mint.1.toNat - 1

theorem mint_of_assigned {next : Id} (assigned : next ≠ Id.unassigned) (some : next ≠ 0) :
    (mint ⟨next⟩).1 = next := by
  rw [mint_eq, if_neg (not_or.2 ⟨assigned, some⟩)]

/-- Whatever a source looks at next, the number that it hands out is assigned and not zero. -/
theorem mint_bounds (source : IdSource) :
    0 < source.mint.1.toNat ∧ source.mint.1.toNat ≤ 4294967294 := by
  obtain ⟨next⟩ := source
  by_cases last : next = Id.unassigned
  · subst last
    decide
  · by_cases zero : next = 0
    · subst zero
      decide
    · have least : next.toNat ≠ 0 := fun none => zero (UInt32.toNat.inj none)
      have most : next.toNat ≠ 4294967295 := fun all => last (UInt32.toNat.inj all)
      have bound := next.toNat_lt
      rw [mint_of_assigned last zero]
      omega

/-- A minted number is never the one that stands for "unassigned". -/
theorem mint_ne_unassigned (source : IdSource) : source.mint.1 ≠ Id.unassigned := by
  intro same
  have bound := source.mint_bounds.2
  rw [same] at bound
  exact absurd bound (by decide)

theorem ne_unassigned_of_mint {source later : IdSource} {id : Id}
    (minted : source.mint = (id, later)) : id ≠ Id.unassigned := by
  have assigned := source.mint_ne_unassigned
  rwa [minted] at assigned

/-- One number after the other, and after the last one the first. -/
theorem rank_mint (source : IdSource) : source.mint.2.rank = (source.rank + 1) % 4294967294 := by
  have least := source.mint_bounds.1
  have most := source.mint_bounds.2
  have after : source.mint.2 = ⟨source.mint.1 + 1⟩ := rfl
  unfold rank
  rw [after]
  generalize source.mint.1 = id at *
  by_cases final : id = 4294967294
  · subst final
    rfl
  · have notFinal : id.toNat ≠ 4294967294 := fun same => final (UInt32.toNat.inj same)
    have step : (id + 1).toNat = id.toNat + 1 := by
      rw [UInt32.toNat_add]
      show (id.toNat + 1) % 4294967296 = _
      omega
    have notLast : id + 1 ≠ Id.unassigned := by
      intro same
      rw [same] at step
      have value : Id.unassigned.toNat = 4294967295 := rfl
      omega
    have notZero : id + 1 ≠ 0 := by
      intro same
      rw [same] at step
      cases step
    rw [mint_of_assigned notLast notZero, step]
    omega

/-- Which numbers a source hands out. -/
theorem rank_of_mem_take {source : IdSource} {count : Nat} {id : Id}
    (mem : id ∈ source.take count) :
    ∃ place < count, id.toNat = (source.rank + place) % 4294967294 + 1 := by
  induction count generalizing source with
  | zero => cases mem
  | succ count ih =>
    rcases List.mem_cons.1 mem with rfl | later
    · have bounds := source.mint_bounds
      refine ⟨0, Nat.succ_pos _, ?_⟩
      unfold rank
      omega
    · obtain ⟨place, less, isThere⟩ := ih later
      rw [rank_mint] at isThere
      exact ⟨place + 1, Nat.succ_lt_succ less, by omega⟩

/-- **No number is handed out twice before they come round.** -/
theorem nodup_take {count : Nat} (source : IdSource) (few : count ≤ 4294967294) :
    (source.take count).Nodup := by
  induction count generalizing source with
  | zero => exact List.Pairwise.nil
  | succ count ih =>
    refine List.nodup_cons.2 ⟨fun again => ?_, ih source.mint.2 (Nat.le_of_succ_le few)⟩
    obtain ⟨place, less, isThere⟩ := rank_of_mem_take again
    have bounds := source.mint_bounds
    rw [rank_mint] at isThere
    unfold rank at isThere
    omega

/-- A source that has handed out some numbers, but not all of them, does not stand where it did. -/
theorem drop_ne {count : Nat} (source : IdSource) (few : count + 1 < 4294967294) :
    source.drop (count + 1) ≠ source := by
  intro same
  have once := @nodup_take (count + 1 + 1) source few
  rw [take_add, same] at once
  -- it would hand out the same number again
  exact (List.nodup_append.1 once).2.2 _ (List.mem_cons_self ..) _ (List.mem_cons_self ..) rfl

/-! ## What has been handed out -/

/-- A source that has handed out some numbers stands somewhere else then. -/
structure Draws (source : IdSource) (ids : List Id) (later : IdSource) : Prop where
  taken : ids = source.take ids.length
  left : later = source.drop ids.length

theorem draws_nil (source : IdSource) : source.Draws [] source := ⟨rfl, rfl⟩

theorem draws_mint {source later : IdSource} {id : Id} (minted : source.mint = (id, later)) :
    source.Draws [id] later := by
  obtain ⟨rfl, rfl⟩ := Prod.mk.inj minted
  exact ⟨rfl, rfl⟩

theorem Draws.append {source between later : IdSource} {ids more : List Id}
    (h : source.Draws ids between) (h' : between.Draws more later) :
    source.Draws (ids ++ more) later where
  taken := by
    rw [List.length_append, take_add, ← h.taken, ← h.left, ← h'.taken]
  left := by
    rw [List.length_append, drop_add, ← h.left, ← h'.left]

/-- As long as only a few numbers are handed out, it can be seen which. -/
theorem Draws.between {source later : IdSource} {ids : List Id} (h : source.Draws ids later)
    {most : Nat} (few : ids.length ≤ most) (rare : most < 4294967294) :
    source.between most later = ids := by
  induction ids generalizing source most with
  | nil =>
    have same : later = source := h.left
    cases most with
    | zero => rfl
    | succ most => exact if_pos same.symm
  | cons id rest ih =>
    cases most with
    | zero => cases few
    | succ most =>
      have taken := h.taken
      have left := h.left
      obtain ⟨isFirst, others⟩ := List.cons.inj taken
      have moved : source ≠ later := fun same =>
        source.drop_ne (Nat.lt_of_le_of_lt few rare) (left.symm.trans same.symm)
      show (if source = later then [] else _) = _
      rw [if_neg moved, isFirst]
      exact congrArg _ (ih ⟨others, left⟩ (Nat.le_of_succ_le_succ few) (by omega))

end IdSource

end CastHub
