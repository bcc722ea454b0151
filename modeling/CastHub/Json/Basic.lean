import CastHub.Table
/-!
# JSON values

* `Json` : a JSON value. Integers and doubles are kept apart; the fields of an object are a
  table.
* `Json.Canonical` : what a free-form value looks like once it has been read: integers fit in 64
  bits and the keys of every object rise strictly, so equal objects are equal lists.
* `Json.Value` : a canonical value.
* `Json.Table.put` : sets one field of an object; the other fields keep their values
  (`find?_put`), and sorted fields stay sorted (`sorted_put`).
-/

namespace CastHub

/-- A JSON value. -/
inductive Json where
  | null
  | bool (b : Bool)
  | int (n : Int)
  | float (x : Float)
  | str (s : String)
  | arr (items : List Json)
  | obj (fields : List (String × Json))
deriving Inhabited

namespace Json

/-- The fields of an object. -/
abbrev Fields := Table String Json

/-- What free-form values look like once read. -/
inductive Canonical : Json → Prop
  | null : Canonical .null
  | bool (b : Bool) : Canonical (.bool b)
  | int {n : Int} (low : -0x8000000000000000 ≤ n) (high : n < 0x10000000000000000) :
      Canonical (.int n)
  | float (x : Float) : Canonical (.float x)
  | str (s : String) : Canonical (.str s)
  | arr {items : List Json} (each : ∀ j ∈ items, Canonical j) : Canonical (.arr items)
  | obj {fields : Fields} (sorted : Table.Sorted fields)
      (each : ∀ f ∈ fields, Canonical f.2) : Canonical (.obj fields)

/-- Setting a field of a canonical object to a canonical value leaves a canonical object. -/
theorem Canonical.put {key : String} {value : Json} {fields : Fields}
    (h : Canonical (.obj fields)) (hv : Canonical value) :
    Canonical (.obj (Table.put key value fields)) := by
  cases h with
  | obj sorted each =>
    refine .obj (Table.sorted_put sorted) fun f hf => ?_
    rcases Table.mem_put hf with rfl | hf
    · exact hv
    · exact each f hf

/-- The empty object is canonical. -/
theorem Canonical.empty : Canonical (.obj []) :=
  .obj List.Pairwise.nil fun _ h => absurd h List.not_mem_nil

/-- A field of a canonical object holds a canonical value. -/
theorem Canonical.of_get? {key : String} {value : Json} {fields : Fields}
    (h : Canonical (.obj fields)) (found : fields.get? key = some value) : Canonical value := by
  cases h with
  | obj sorted each => exact each _ (Table.mem_of_get? found)

/-- A canonical JSON value. -/
structure Value where
  json : Json
  canonical : json.Canonical

namespace Value

/-- The value `null`. -/
def null : Value := ⟨.null, .null⟩

instance : Inhabited Value := ⟨null⟩

/-- Two values are equal when their JSON is. -/
theorem ext {a b : Value} (h : a.json = b.json) : a = b := by
  cases a; cases b; cases h; rfl

end Value

/-- Looks a field up, if the value is an object. -/
def field? (json : Json) (key : String) : Option Json :=
  match json with
  | .obj fields => Table.get? fields key
  | _ => none

/-- The integer that a value is. -/
def int? : Json → Option Int
  | .int n => some n
  | _ => none

end Json

end CastHub
