import CastHub.Json.Basic
import CastHub.Json.Numeral
import CastHub.Json.Quoted
/-!
# JSON texts as trees

A `JsonTree` is a JSON text with its blanks forgotten and nothing else: the fields of an object
stand in the order in which they were written, repeated ones included, and numbers keep their
digits. Records are decoded from trees, because a repeated field is an error in a record; free-form
values are taken from trees by `JsonTree.value?`, which lets the last of repeated fields win.

* `JsonTree.write` : the characters of a tree, without blanks.
* `JsonTree.value?` : the value of a tree whose arrays and objects nest at most so deep.
* `Json.toTree` : the tree of a value.
-/

namespace CastHub

/-- A JSON text with its blanks forgotten. A string is `none` when one of its escapes names half of
a surrogate pair: it is well-formed but stands for no characters. -/
inductive JsonTree where
  | null
  | bool (b : Bool)
  | number (n : Numeral)
  | string (s : Option String)
  | array (items : List JsonTree)
  | object (fields : List (Option String × JsonTree))
deriving Inhabited

namespace JsonTree

/-- How deep arrays and objects may nest in a text. -/
def maxDepth : Nat := 127

/-- The characters of a string with its quotes. -/
def writeString (s : Option String) (rest : List Char) : List Char :=
  match s with
  | some s => '"' :: Quoted.write s.toList rest
  | none => '"' :: '\\' :: 'u' :: 'd' :: '8' :: '0' :: '0' :: '"' :: rest

mutual

/-- The characters of a tree, then `rest`. -/
def write (tree : JsonTree) (rest : List Char) : List Char :=
  match tree with
  | .null => 'n' :: 'u' :: 'l' :: 'l' :: rest
  | .bool true => 't' :: 'r' :: 'u' :: 'e' :: rest
  | .bool false => 'f' :: 'a' :: 'l' :: 's' :: 'e' :: rest
  | .number n => n.write rest
  | .string s => writeString s rest
  | .array [] => '[' :: ']' :: rest
  | .array (item :: items) => '[' :: write item (writeItems items rest)
  | .object [] => '\x7b' :: '\x7d' :: rest
  | .object ((key, value) :: fields) =>
    '\x7b' :: writeString key (':' :: write value (writeFields fields rest))

/-- The items of an array after its first, and its closing bracket. -/
def writeItems (items : List JsonTree) (rest : List Char) : List Char :=
  match items with
  | [] => ']' :: rest
  | item :: items => ',' :: write item (writeItems items rest)

/-- The fields of an object after its first, and its closing brace. -/
def writeFields (fields : List (Option String × JsonTree)) (rest : List Char) : List Char :=
  match fields with
  | [] => '\x7d' :: rest
  | (key, value) :: fields => ',' :: writeString key (':' :: write value (writeFields fields rest))

end

/-- The text of a tree. -/
def render (tree : JsonTree) : String := String.ofList (tree.write [])

mutual

/-- The value of a tree, if its arrays and objects nest at most `depth` deep, its strings stand for
characters and its numbers are not too large. Of repeated fields the last one wins. -/
def value? (depth : Nat) (tree : JsonTree) : Option Json :=
  match tree with
  | .null => some .null
  | .bool b => some (.bool b)
  | .number n =>
    match n.int? with
    | some i => some (.int i)
    | none => n.float?.map .float
  | .string s => s.map .str
  | .array items =>
    match depth with
    | 0 => none
    | depth + 1 => (values? depth items).map .arr
  | .object fields =>
    match depth with
    | 0 => none
    | depth + 1 => (fields? depth [] fields).map .obj

/-- The values of the items of an array. -/
def values? (depth : Nat) (items : List JsonTree) : Option (List Json) :=
  match items with
  | [] => some []
  | item :: items =>
    match value? depth item with
    | none => none
    | some j => (values? depth items).map (j :: ·)

/-- Puts the fields of an object into those already read. -/
def fields? (depth : Nat) (sofar : Json.Fields) (fields : List (Option String × JsonTree)) :
    Option Json.Fields :=
  match fields with
  | [] => some sofar
  | (key, tree) :: fields =>
    match key, value? depth tree with
    | some key, some value => fields? depth (Table.put key value sofar) fields
    | _, _ => none

end

/-- An integer read from a numeral fits in 64 bits. -/
theorem canonical_of_int? {n : Numeral} {i : Int} (h : n.int? = some i) :
    Json.Canonical (.int i) := by
  have bounds : -0x8000000000000000 ≤ i ∧ i < 0x10000000000000000 := by
    unfold Numeral.int? at h
    dsimp only at h
    split at h
    · simp at h
    · split at h
      · split at h
        · rename_i hv
          have := Option.some.inj h
          omega
        · simp at h
      · split at h
        · rename_i hv
          have := Option.some.inj h
          omega
        · simp at h
  exact .int bounds.1 bounds.2

mutual

/-- What is read from a tree is canonical. -/
theorem canonical_value? {depth : Nat} {tree : JsonTree} {json : Json}
    (h : value? depth tree = some json) : json.Canonical := by
  cases tree with
  | null => unfold value? at h; cases h; exact .null
  | bool b => unfold value? at h; cases h; exact .bool b
  | number n =>
    unfold value? at h
    split at h
    · rename_i i hi
      cases h
      exact canonical_of_int? hi
    · cases hf : n.float? with
      | none => simp [hf] at h
      | some x => simp only [hf, Option.map_some, Option.some.injEq] at h; exact h ▸ .float x
  | string s =>
    unfold value? at h
    cases s with
    | none => simp at h
    | some s => simp only [Option.map_some, Option.some.injEq] at h; exact h ▸ .str s
  | array items =>
    unfold value? at h
    cases depth with
    | zero => simp at h
    | succ depth =>
      simp only at h
      obtain ⟨js, hjs, rfl⟩ := Option.map_eq_some_iff.1 h
      exact .arr (canonical_values? hjs)
  | object fields =>
    unfold value? at h
    cases depth with
    | zero => simp at h
    | succ depth =>
      simp only at h
      obtain ⟨fs, hfs, rfl⟩ := Option.map_eq_some_iff.1 h
      exact canonical_fields? .empty hfs

/-- The items read from trees are canonical. -/
theorem canonical_values? {depth : Nat} {items : List JsonTree} {js : List Json}
    (h : values? depth items = some js) : ∀ j ∈ js, Json.Canonical j := by
  cases items with
  | nil => unfold values? at h; cases h; simp
  | cons item items =>
    unfold values? at h
    split at h
    · simp at h
    · rename_i j hj
      obtain ⟨rest, hrest, rfl⟩ := Option.map_eq_some_iff.1 h
      intro k hk
      rcases List.mem_cons.1 hk with rfl | hk
      · exact canonical_value? hj
      · exact canonical_values? hrest k hk

/-- Fields read from trees into a canonical object leave it canonical. -/
theorem canonical_fields? {depth : Nat} {sofar result : Json.Fields}
    {fields : List (Option String × JsonTree)} (start : Json.Canonical (.obj sofar))
    (h : fields? depth sofar fields = some result) : Json.Canonical (.obj result) := by
  cases fields with
  | nil => unfold fields? at h; cases h; exact start
  | cons field fields =>
    obtain ⟨key, tree⟩ := field
    unfold fields? at h
    split at h
    · rename_i key value hv
      exact canonical_fields? (start.put (canonical_value? hv)) h
    · simp at h

end

/-- The free-form value of a tree. -/
def freeValue? (depth : Nat) (tree : JsonTree) : Option Json.Value :=
  match h : tree.value? depth with
  | none => none
  | some json => some ⟨json, canonical_value? h⟩

end JsonTree

namespace Json

mutual

/-- The tree of a value. -/
def toTree (json : Json) : JsonTree :=
  match json with
  | .null => .null
  | .bool b => .bool b
  | .int n => .number (Numeral.ofInt n)
  | .float x => .number (Numeral.ofFloat x)
  | .str s => .string (some s)
  | .arr items => .array (toTrees items)
  | .obj fields => .object (fieldTrees fields)

/-- The trees of the items of an array. -/
def toTrees (items : List Json) : List JsonTree :=
  match items with
  | [] => []
  | item :: items => toTree item :: toTrees items

/-- The trees of the fields of an object. -/
def fieldTrees (fields : List (String × Json)) : List (Option String × JsonTree) :=
  match fields with
  | [] => []
  | (key, value) :: fields => (some key, toTree value) :: fieldTrees fields

end

/-- The text of a value, without blanks. -/
def render (json : Json) : String := json.toTree.render

end Json

end CastHub
