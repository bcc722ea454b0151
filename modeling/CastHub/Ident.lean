/-!
# Identities

Contexts and agents are named by 32-bit numbers drawn from one source per hub.

* `Id.unassigned` : the number that stands for "no identity yet"; no live thing ever has it.
* `IdSource.mint` : the next number. Numbers grow by one, and after the last one they come round to
  the first: `Id.unassigned` and zero are passed over. They are handed out again then, whether or
  not what they named is still there.
-/

namespace CastHub

/-- Names a context, an agent, a media channel or an interaction client. -/
abbrev Id := UInt32

/-- Stands where no identity has been assigned; it never names a live thing. -/
def Id.unassigned : Id := 0xFFFFFFFF

/-- Where a source of identities stands: `next` is the number that it looks at next. -/
structure IdSource where
  next : Id := 1
deriving Repr, DecidableEq

namespace IdSource

/-- Passes over a number that is not handed out. -/
def passOver (source : IdSource) : IdSource :=
  if source.next = Id.unassigned ∨ source.next = 0 then ⟨source.next + 1⟩ else source

/-- Takes the next number. The two that are not handed out stand side by side, where the numbers
come round. -/
def mint (source : IdSource) : Id × IdSource :=
  let source := source.passOver.passOver
  (source.next, ⟨source.next + 1⟩)

/-- Drawing a number: one that is not handed out is drawn in vain. -/
theorem mint_eq (source : IdSource) : source.mint =
    if source.next = Id.unassigned ∨ source.next = 0 then mint ⟨source.next + 1⟩
    else (source.next, ⟨source.next + 1⟩) := by
  obtain ⟨next⟩ := source
  by_cases last : next = Id.unassigned
  · subst last
    rfl
  · by_cases zero : next = 0
    · subst zero
      rfl
    · simp [mint, passOver, last, zero]

example : mint ⟨.unassigned⟩ = (1, ⟨2⟩) := rfl

/-- The first `count` numbers that a source hands out. -/
def take : Nat → IdSource → List Id
  | 0, _ => []
  | count + 1, source => source.mint.1 :: source.mint.2.take count

/-- Where a source stands after it has handed out `count` numbers. -/
def drop : Nat → IdSource → IdSource
  | 0, source => source
  | count + 1, source => source.mint.2.drop count

/-- The numbers that are handed out until a source stands where it does later, if these are no more
than `most`. -/
def between : Nat → IdSource → IdSource → List Id
  | 0, _, _ => []
  | most + 1, source, later =>
    if source = later then [] else source.mint.1 :: source.mint.2.between most later

end IdSource

end CastHub
