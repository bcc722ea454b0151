import CastHub.Json.Tree
/-!
# Decoding records

A record is written as an object. Its fields may stand in any order and unknown ones are passed
over unread, but a known field must not stand twice and keys must be readable. A record may also be
written as the array of its fields in their declared order; the last ones may be left out if the
record can do without them.

All decoders take the `Place` of what they decode. Some parts of a text are read before it is known
what they are: they are set aside until the tag that tells has been found. Such a part has to be
readable throughout, and in it the empty object may stand for nothing as `null` does.
-/

namespace CastHub.JsonTree

/-- The place of a part in a text. -/
structure Place where
  /-- How many more arrays and objects may be opened on the way down. -/
  depth : Nat
  /-- Whether the part was set aside before it was known what it is. -/
  isSetAside : Bool := false
deriving Repr, DecidableEq

namespace Place

/-- The place of a whole text. -/
def top : Place := { depth := maxDepth }

/-- The place of a part that has been set aside. -/
def setAside (place : Place) : Place := { place with isSetAside := true }

/-- Whether a tree stands for nothing at a place. -/
def isNothing (place : Place) : JsonTree → Bool
  | .null => true
  | .object [] => place.isSetAside
  | _ => false

end Place

/-- A decoder of one field. -/
abbrev Decoder (α : Type) := Place → JsonTree → Option α

/-- The value of the only field with a given key; `none` if the key stands twice. -/
def fieldOnce? (fields : List (Option String × JsonTree)) (key : String) :
    Option (Option JsonTree) :=
  match fields.filter (·.1 == some key) with
  | [] => some none
  | [field] => some (some field.2)
  | _ => none

/-- The trees of a record's fields, one for each key, `none` where a field is missing; together
with the place inside the record. -/
def record? (keys : List String) (place : Place) (tree : JsonTree) :
    Option (List (Option JsonTree) × Place) :=
  match place.depth, tree with
  | depth + 1, .object fields =>
    if fields.all (·.1.isSome) then
      (keys.mapM (fieldOnce? fields)).map (·, { place with depth })
    else none
  | depth + 1, .array items =>
    if items.length ≤ keys.length then
      some (items.map some ++ List.replicate (keys.length - items.length) none,
        { place with depth })
    else none
  | _, _ => none

/-- Decodes a field that must be there. -/
def need {α : Type} (decode : Decoder α) (place : Place) (field : Option JsonTree) : Option α :=
  field.bind (decode place)

/-- Decodes a field that may be missing or `null`. -/
def may {α : Type} (decode : Decoder α) (place : Place) (field : Option JsonTree) :
    Option (Option α) :=
  match field with
  | none => some none
  | some .null => some none
  | some tree => (decode place tree).map some

/-- Decodes a field that may be missing but not `null`. -/
def mayElse {α : Type} (default : α) (decode : Decoder α) (place : Place)
    (field : Option JsonTree) : Option α :=
  match field with
  | none => some default
  | some tree => decode place tree

/-- Decodes an integer from `low` up to and including `high`. -/
def Decoder.integer (low high : Int) : Decoder Int
  | _, .number n => n.int?.bind fun i => if low ≤ i ∧ i ≤ high then some i else none
  | _, _ => none

/-- Decodes a natural number below `2 ^ 32`. -/
def Decoder.word32 : Decoder UInt32 := fun place tree =>
  (Decoder.integer 0 0xFFFFFFFF place tree).map fun i => UInt32.ofNat i.toNat

/-- Decodes a natural number below `2 ^ 64`. -/
def Decoder.word64 : Decoder UInt64 := fun place tree =>
  (Decoder.integer 0 0xFFFFFFFFFFFFFFFF place tree).map fun i => UInt64.ofNat i.toNat

/-- Decodes a truth value. -/
def Decoder.truth : Decoder Bool
  | _, .bool b => some b
  | _, _ => none

/-- Decodes a string. -/
def Decoder.text : Decoder String
  | _, .string s => s
  | _, _ => none

/-- Decodes a name out of a closed set. A name may also be written as an object whose only field has
that name and holds nothing. -/
def Decoder.named {α : Type} (ofName? : String → Option α) : Decoder α
  | _, .string (some name) => ofName? name
  | place, .object [(some name, body)] =>
    if place.depth ≠ 0 ∧ place.isNothing body then ofName? name else none
  | _, _ => none

/-- Decodes a free-form value. -/
def Decoder.free : Decoder Json.Value := fun place => freeValue? place.depth

/-- Whether every string and number of a tree is readable and the tree nests no deeper than its
place allows. -/
def isReadable (place : Place) (tree : JsonTree) : Bool := (tree.value? place.depth).isSome

/-- Takes the tag off a record of several kinds: the field with a given key, or the first item of an
array. What is left is the record that the tag stands for. The tag may come last, so everything
else is set aside. -/
def tagged? (key : String) (place : Place) (tree : JsonTree) : Option (String × JsonTree) :=
  if tree.isReadable place then
    match tree with
    | .object fields =>
      match fields.filter (·.1 == some key) with
      | [(_, .string (some tag))] => some (tag, .object (fields.filter (·.1 != some key)))
      | _ => none
    | .array (.string (some tag) :: items) => some (tag, .array items)
    | _ => none
  else none

end CastHub.JsonTree
