import CastHub.Json.Record
import CastHub.Proofs.Reading
import CastHub.Proofs.Table
/-!
# The ways to spell a value

There is more than one way to write a value down. The fields of an object may stand in any order;
in a record, whatever is absent may be written as `null`, and fields that nobody knows may be added.
All these spellings are read as the value that they spell.

* `JsonTree.depth` : how deep a tree nests;
* `JsonTree.Legible` : a tree that stands for some value;
* `Json.Spelling` : the trees that spell a free-form value, and `Json.Spelling.value?`, that it is
  read from them. Values without doubles have a spelling, the plain one
  (`Json.Floatless.spelling`);
* `RecordSpelling` : the trees that spell a record whose fields are spelled in their own ways, and
  `RecordSpelling.record?`, what a decoder finds under each of its keys: `Found`.
-/

namespace CastHub

/-! ## How deep trees nest -/

namespace JsonTree

mutual

/-- How deep the arrays and objects of a tree nest. -/
def depth (tree : JsonTree) : Nat :=
  match tree with
  | .null => 0
  | .bool _ => 0
  | .number _ => 0
  | .string _ => 0
  | .array items => depths items + 1
  | .object fields => fieldDepths fields + 1

/-- How deep the deepest item nests. -/
def depths (items : List JsonTree) : Nat :=
  match items with
  | [] => 0
  | item :: items => max (depth item) (depths items)

/-- How deep the deepest field nests. -/
def fieldDepths (fields : List (Option String × JsonTree)) : Nat :=
  match fields with
  | [] => 0
  | (_, value) :: fields => max (depth value) (fieldDepths fields)

end

theorem depth_le_depths {item : JsonTree} {items : List JsonTree} (mem : item ∈ items) :
    item.depth ≤ depths items := by
  induction items with
  | nil => cases mem
  | cons head items ih =>
    rw [depths]
    rcases List.mem_cons.1 mem with rfl | mem
    · exact Nat.le_max_left ..
    · exact Nat.le_trans (ih mem) (Nat.le_max_right ..)

theorem depth_le_fieldDepths {field : Option String × JsonTree}
    {fields : List (Option String × JsonTree)} (mem : field ∈ fields) :
    field.2.depth ≤ fieldDepths fields := by
  induction fields with
  | nil => cases mem
  | cons head fields ih =>
    rw [fieldDepths]
    rcases List.mem_cons.1 mem with rfl | mem
    · exact Nat.le_max_left ..
    · exact Nat.le_trans (ih mem) (Nat.le_max_right ..)

/-! ## Trees that stand for values -/

/-- A tree that stands for a value: its numbers are numbers and not too large, and its strings and
keys stand for characters. -/
inductive Legible : JsonTree → Prop
  | null : Legible .null
  | bool (b : Bool) : Legible (.bool b)
  | number {n : Numeral} (proper : n.IsProper) (small : n.int?.isSome ∨ n.float?.isSome) :
      Legible (.number n)
  | string (s : String) : Legible (.string (some s))
  | array {items : List JsonTree} (each : ∀ item ∈ items, Legible item) : Legible (.array items)
  | object {fields : List (Option String × JsonTree)} (named : ∀ f ∈ fields, f.1.isSome)
      (each : ∀ f ∈ fields, Legible f.2) : Legible (.object fields)

namespace Legible

/-- What stands for a value can be written. -/
theorem isProper {tree : JsonTree} (h : tree.Legible) : tree.IsProper := by
  induction h with
  | null => exact .null
  | bool b => exact .bool b
  | number proper => exact .number proper
  | string s => exact .string s
  | array _ ih => exact .array ih
  | object _ _ ih => exact .object ih

theorem isSome_values? {depth : Nat} {items : List JsonTree}
    (each : ∀ item ∈ items, (value? depth item).isSome) : (values? depth items).isSome := by
  induction items with
  | nil => rfl
  | cons item items ih =>
    obtain ⟨json, read⟩ := Option.isSome_iff_exists.1 (each item (List.mem_cons_self ..))
    have others := ih fun i mem => each i (List.mem_cons_of_mem _ mem)
    simp only [values?, read, Option.isSome_map, others]

theorem isSome_fields? {depth : Nat} {fields : List (Option String × JsonTree)}
    (named : ∀ f ∈ fields, f.1.isSome) (each : ∀ f ∈ fields, (value? depth f.2).isSome)
    (sofar : Json.Fields) : (fields? depth sofar fields).isSome := by
  induction fields generalizing sofar with
  | nil => rfl
  | cons field fields ih =>
    obtain ⟨title, tree⟩ := field
    obtain ⟨key, rfl⟩ : ∃ key, title = some key :=
      Option.isSome_iff_exists.1 (named (title, tree) (List.mem_cons_self ..))
    obtain ⟨json, read⟩ := Option.isSome_iff_exists.1 (each _ (List.mem_cons_self ..))
    have read : value? depth tree = some json := read
    have others := ih (fun f mem => named f (List.mem_cons_of_mem _ mem))
      (fun f mem => each f (List.mem_cons_of_mem _ mem)) (Table.put key json sofar)
    simp only [fields?, read]
    exact others

/-- What stands for a value has one, however it nests. -/
theorem isSome_value? {tree : JsonTree} (h : tree.Legible) :
    ∀ {depth : Nat}, tree.depth ≤ depth → (tree.value? depth).isSome := by
  induction h with
  | null => exact fun _ => rfl
  | bool b => exact fun _ => rfl
  | string s => exact fun _ => rfl
  | number proper small =>
    intro depth _
    rw [value?]
    cases found : Numeral.int? _ with
    | some i => rfl
    | none =>
      have double := small.resolve_left (by rw [found]; decide)
      simpa using double
  | array each ih =>
    intro depth shallow
    rw [JsonTree.depth] at shallow
    obtain ⟨inner, rfl⟩ : ∃ inner, depth = inner + 1 := ⟨depth - 1, by omega⟩
    have read : (values? inner _).isSome := isSome_values? fun i mem =>
      ih i mem (Nat.le_trans (depth_le_depths mem) (by omega))
    rw [value?]
    simpa using read
  | object named each ih =>
    intro depth shallow
    rw [JsonTree.depth] at shallow
    obtain ⟨inner, rfl⟩ : ∃ inner, depth = inner + 1 := ⟨depth - 1, by omega⟩
    have read : (fields? inner [] _).isSome := isSome_fields? named (fun f mem =>
      ih f mem (Nat.le_trans (depth_le_fieldDepths mem) (by omega))) []
    rw [value?]
    simpa using read

/-- What stands for a value may be set aside. -/
theorem isReadable {tree : JsonTree} (h : tree.Legible) {place : Place}
    (shallow : tree.depth ≤ place.depth) : tree.isReadable place = true := h.isSome_value? shallow

end Legible

end JsonTree

/-! ## Free-form values -/

/-- The trees that spell a value: its own, and those in which the fields of some objects stand in
another order. Doubles are not spelled. -/
inductive Json.Spelling : Json → JsonTree → Prop
  | null : Spelling .null .null
  | bool (b : Bool) : Spelling (.bool b) (.bool b)
  | int (n : Int) : Spelling (.int n) (.number (.ofInt n))
  | str (s : String) : Spelling (.str s) (.string (some s))
  | arr {items : List (Json × JsonTree)} (each : ∀ i ∈ items, Spelling i.1 i.2) :
      Spelling (.arr (items.map (·.1))) (.array (items.map (·.2)))
  | obj {fields written : List (String × Json × JsonTree)} (order : written.Perm fields)
      (each : ∀ f ∈ fields, Spelling f.2.1 f.2.2) :
      Spelling (.obj (fields.map fun f => (f.1, f.2.1)))
        (.object (written.map fun f => (some f.1, f.2.2)))

/-- A value without doubles. -/
inductive Json.Floatless : Json → Prop
  | null : Floatless .null
  | bool (b : Bool) : Floatless (.bool b)
  | int (n : Int) : Floatless (.int n)
  | str (s : String) : Floatless (.str s)
  | arr {items : List Json} (each : ∀ i ∈ items, Floatless i) : Floatless (.arr items)
  | obj {fields : Json.Fields} (each : ∀ f ∈ fields, Floatless f.2) : Floatless (.obj fields)

namespace Json

/-- No other value is spelled as `null`. -/
@[simp] theorem spelling_null_iff {j : Json} : j.Spelling .null ↔ j = .null := by
  constructor
  · intro spelt
    cases spelt
    rfl
  · rintro rfl
    exact .null

theorem toTrees_eq_map (items : List Json) : toTrees items = items.map toTree := by
  induction items with
  | nil => rfl
  | cons item items ih => rw [toTrees, ih, List.map_cons]

theorem fieldTrees_eq_map (fields : Fields) :
    fieldTrees fields = fields.map fun f => (some f.1, f.2.toTree) := by
  induction fields with
  | nil => rfl
  | cons field fields ih => rw [fieldTrees, ih, List.map_cons]

/-- The tree of a value spells it. -/
theorem Floatless.spelling {json : Json} (h : json.Floatless) : json.Spelling json.toTree := by
  induction h with
  | null => exact .null
  | bool b => exact .bool b
  | int n => exact .int n
  | str s => exact .str s
  | @arr items each ih =>
    have plain := Spelling.arr fun i (mem : i ∈ items.map fun json => (json, json.toTree)) => by
      obtain ⟨json, here, rfl⟩ := List.mem_map.1 mem
      exact ih json here
    simpa [toTree, toTrees_eq_map, Function.comp_def] using plain
  | @obj fields each ih =>
    have plain := Spelling.obj (.refl _) fun f
        (mem : f ∈ fields.map fun f => (f.1, f.2, f.2.toTree)) => by
      obtain ⟨field, here, rfl⟩ := List.mem_map.1 mem
      exact ih field here
    simpa [toTree, fieldTrees_eq_map, Function.comp_def] using plain

namespace Spelling

theorem values?_eq {depth : Nat} {items : List (Json × JsonTree)}
    (each : ∀ i ∈ items, i.2.value? depth = some i.1) :
    JsonTree.values? depth (items.map (·.2)) = some (items.map (·.1)) := by
  induction items with
  | nil => rfl
  | cons item items ih =>
    have others := ih fun i mem => each i (List.mem_cons_of_mem _ mem)
    simp only [List.map_cons, JsonTree.values?, each item (List.mem_cons_self ..), others,
      Option.map_some]

/-- Fields are put into an object one after another. -/
theorem fields?_eq {depth : Nat} {written : List (String × Json × JsonTree)}
    (each : ∀ f ∈ written, f.2.2.value? depth = some f.2.1) (sofar : Fields) :
    JsonTree.fields? depth sofar (written.map fun f => (some f.1, f.2.2))
      = some ((written.map fun f => (f.1, f.2.1)).foldl (fun t f => Table.put f.1 f.2 t)
        sofar) := by
  induction written generalizing sofar with
  | nil => rfl
  | cons field written ih =>
    have others := ih fun f mem => each f (List.mem_cons_of_mem _ mem)
    simp only [List.map_cons, JsonTree.fields?, each field (List.mem_cons_self ..), List.foldl_cons,
      others]

/-- Setting entries with keys of their own adds them. -/
theorem perm_foldl_put {fields sofar : Fields} (distinct : (fields.map (·.1)).Nodup)
    (new : ∀ f ∈ fields, sofar.get? f.1 = none) :
    (fields.foldl (fun t f => Table.put f.1 f.2 t) sofar).Perm (fields ++ sofar) := by
  induction fields generalizing sofar with
  | nil => exact .refl _
  | cons field fields ih =>
    obtain ⟨key, json⟩ := field
    obtain ⟨apart, distinct⟩ := List.nodup_cons.1 distinct
    have later : ∀ f ∈ fields, (Table.put key json sofar).get? f.1 = none := by
      intro f mem
      have other : f.1 ≠ key := by
        intro same
        exact apart (List.mem_map.2 ⟨f, mem, same⟩)
      rw [Table.get?_put, if_neg other]
      exact new f (List.mem_cons_of_mem _ mem)
    have added : (Table.put key json sofar).Perm ((key, json) :: sofar) :=
      Table.perm_put (new _ (List.mem_cons_self ..))
    exact (ih distinct later).trans ((added.append_left fields).trans List.perm_middle)

theorem sorted_foldl_put {fields sofar : Fields} (sorted : Table.Sorted sofar) :
    Table.Sorted (fields.foldl (fun t f => Table.put f.1 f.2 t) sofar) := by
  induction fields generalizing sofar with
  | nil => exact sorted
  | cons field fields ih => exact ih (Table.sorted_put sorted)

/-- Putting the fields of an object together again, in whatever order, makes that object. -/
theorem foldl_put_of_perm {fields written : Fields} (sorted : Table.Sorted fields)
    (order : written.Perm fields) :
    written.foldl (fun t f => Table.put f.1 f.2 t) [] = fields := by
  have distinct : (fields.map (·.1)).Nodup :=
    List.pairwise_map.2 (List.Pairwise.imp (fun below => Std.ne_of_lt below) sorted)
  have same : (written.foldl (fun t f => Table.put f.1 f.2 t) []).Perm (written ++ []) :=
    perm_foldl_put ((order.map _).nodup_iff.2 distinct) fun _ _ => rfl
  rw [List.append_nil] at same
  exact (same.trans order).eq_of_pairwise
    (fun a b _ _ below above => absurd (Std.lt_trans below above) Std.lt_irrefl)
    (sorted_foldl_put .nil) sorted

/-- **A free-form value is read from every tree that spells it.** -/
theorem value? {json : Json} {tree : JsonTree} (h : json.Spelling tree) :
    json.Canonical → ∀ {depth : Nat}, tree.depth ≤ depth → tree.value? depth = some json := by
  induction h with
  | null => exact fun _ _ _ => rfl
  | bool b => exact fun _ _ _ => rfl
  | str s => exact fun _ _ _ => rfl
  | int n =>
    rintro ⟨⟩ depth -
    rename_i low high
    simp only [JsonTree.value?, Numeral.int?_ofInt low high]
  | @arr items each ih =>
    rintro ⟨⟩ depth shallow
    rename_i canonical
    -- the brackets take one level, and the items have the others
    rw [JsonTree.depth] at shallow
    obtain ⟨inner, rfl⟩ : ∃ inner, depth = inner + 1 := ⟨depth - 1, by omega⟩
    have read : ∀ i ∈ items, i.2.value? inner = some i.1 := by
      intro i mem
      have nests := JsonTree.depth_le_depths (List.mem_map_of_mem (f := (·.2)) mem)
      exact ih i mem (canonical _ (List.mem_map_of_mem mem)) (by omega)
    simp only [JsonTree.value?, values?_eq read, Option.map_some]
  | @obj fields written order each ih =>
    rintro ⟨⟩ depth shallow
    rename_i sorted canonical
    rw [JsonTree.depth] at shallow
    obtain ⟨inner, rfl⟩ : ∃ inner, depth = inner + 1 := ⟨depth - 1, by omega⟩
    have read : ∀ f ∈ written, f.2.2.value? inner = some f.2.1 := by
      intro f mem
      have nests : f.2.2.depth ≤ _ := JsonTree.depth_le_fieldDepths
        (List.mem_map_of_mem (f := fun f => (some f.1, f.2.2)) mem)
      have mem := order.subset mem
      exact ih f mem (canonical _ (List.mem_map_of_mem mem)) (by omega)
    simp only [JsonTree.value?, fields?_eq read, foldl_put_of_perm sorted (order.map _),
      Option.map_some]

/-- What spells a value stands for one. -/
theorem legible {json : Json} {tree : JsonTree} (h : json.Spelling tree) :
    json.Canonical → tree.Legible := by
  induction h with
  | null => exact fun _ => .null
  | bool b => exact fun _ => .bool b
  | str s => exact fun _ => .string s
  | int n =>
    rintro ⟨⟩
    rename_i low high
    exact .number (Numeral.isProper_ofInt n) (.inl (by rw [Numeral.int?_ofInt low high]; rfl))
  | arr each ih =>
    rintro ⟨⟩
    rename_i canonical
    refine .array fun tree mem => ?_
    obtain ⟨i, here, rfl⟩ := List.mem_map.1 mem
    exact ih i here (canonical _ (List.mem_map_of_mem here))
  | obj order each ih =>
    rintro ⟨⟩
    rename_i canonical
    refine .object (fun field mem => ?_) fun field mem => ?_
    · obtain ⟨f, -, rfl⟩ := List.mem_map.1 mem
      rfl
    · obtain ⟨f, here, rfl⟩ := List.mem_map.1 mem
      have here := order.subset here
      exact ih f here (canonical _ (List.mem_map_of_mem here))

end Spelling

end Json

/-! ## Records -/

/-- The trees that spell a record. Every field is there with a tree that spells its value in the
field's own way; an `optional` field that is absent may be there as `null`; fields of other names
may be there with anything that stands for a value; and all of them stand in any order. -/
inductive RecordSpelling (optional : List String) (each : String → Json → JsonTree → Prop)
    (record : Json.Fields) : JsonTree → Prop
  | intro {written nulls unknown fields : List (Option String × JsonTree)}
      (said : List.Forall₂ (fun f w => w.1 = some f.1 ∧ each f.1 f.2 w.2) record written)
      (absent : ∀ f ∈ nulls, ∃ key ∈ optional, record.get? key = none ∧ f = (some key, .null))
      (once : nulls.Nodup)
      (other : ∀ f ∈ unknown, ∃ key ∉ optional, record.get? key = none ∧ f.1 = some key)
      (legible : ∀ f ∈ unknown, f.2.Legible)
      (order : fields.Perm (written ++ nulls ++ unknown)) :
      RecordSpelling optional each record (.object fields)

/-- What may be found under a key: a spelling of its value; nothing or `null` if it has none. -/
inductive Found (each : Json → JsonTree → Prop) : Option Json → Option JsonTree → Prop
  | said {json : Json} {tree : JsonTree} (spelt : each json tree) :
    Found each (some json) (some tree)
  | missing : Found each none none
  | null : Found each none (some .null)

namespace RecordSpelling

open JsonTree (fieldOnce?)

variable {optional : List String} {each : String → Json → JsonTree → Prop} {record : Json.Fields}

/-- Under a key that no field has, no field stands. -/
theorem filter_written_of_none {written : List (Option String × JsonTree)}
    (said : List.Forall₂ (fun f w => w.1 = some f.1 ∧ each f.1 f.2 w.2) record written)
    {key : String} (no : record.get? key = none) : written.filter (·.1 == some key) = [] := by
  induction said with
  | nil => rfl
  | @cons f w record written spelt rest ih =>
    rw [Table.get?] at no
    split at no
    · cases no
    · rename_i apart
      have title : (w.1 == some key) = false := by
        rw [spelt.1]
        exact beq_false_of_ne fun same => apart (Option.some.inj same).symm
      rw [List.filter_cons_of_neg (by simp [title]), ih no]

/-- Under the key of a field stands that field once. -/
theorem filter_written {written : List (Option String × JsonTree)}
    (said : List.Forall₂ (fun f w => w.1 = some f.1 ∧ each f.1 f.2 w.2) record written)
    (distinct : (record.map (·.1)).Nodup) {key : String} {json : Json}
    (has : record.get? key = some json) :
    ∃ tree, each key json tree ∧ written.filter (·.1 == some key) = [(some key, tree)] := by
  induction said with
  | nil => cases has
  | @cons f w record written spelt rest ih =>
    obtain ⟨name, value⟩ := f
    obtain ⟨title, tree⟩ := w
    obtain ⟨rfl, spelt⟩ : title = some name ∧ each name value tree := spelt
    obtain ⟨apart, distinct⟩ := List.nodup_cons.1 distinct
    rw [Table.get?] at has
    split at has
    · rename_i same
      obtain rfl := Option.some.inj has
      subst same
      have alone : Table.get? record key = none := Table.get?_eq_none fun e mem same =>
        apart (List.mem_map.2 ⟨e, mem, same⟩)
      refine ⟨tree, spelt, ?_⟩
      rw [List.filter_cons_of_pos (by simp), filter_written_of_none rest alone]
    · rename_i other
      obtain ⟨found, spelt, only⟩ := ih distinct has
      refine ⟨found, spelt, ?_⟩
      rw [List.filter_cons_of_neg (by simp [Ne.symm other]), only]

/-- Under a key stands what spells the value of the record's field, or nothing of importance. -/
theorem fieldOnce? {fields : List (Option String × JsonTree)}
    (h : RecordSpelling optional each record (.object fields))
    (distinct : (record.map (·.1)).Nodup) {key : String}
    (known : record.get? key = none → key ∈ optional) :
    ∃ field, JsonTree.fieldOnce? fields key = some field
      ∧ Found (each key) (record.get? key) field := by
  cases h with
  | @intro written nulls unknown _ said absent once other legible order =>
    -- of the three kinds of fields, at most one has anything under this key
    have order := order.filter (·.1 == some key)
    have foreign : unknown.filter (·.1 == some key) = [] := by
      refine List.filter_eq_nil_iff.2 fun f mem => ?_
      obtain ⟨name, notOptional, no, title⟩ := other f mem
      rw [title]
      rintro same
      obtain rfl : name = key := by simpa using same
      exact notOptional (known no)
    rw [List.filter_append, List.filter_append, foreign, List.append_nil] at order
    unfold JsonTree.fieldOnce?
    cases has : record.get? key with
    | some json =>
      obtain ⟨tree, spelt, only⟩ := filter_written said distinct has
      have empty : nulls.filter (·.1 == some key) = [] := by
        refine List.filter_eq_nil_iff.2 fun f mem => ?_
        obtain ⟨name, -, no, rfl⟩ := absent f mem
        rintro same
        obtain rfl : name = key := by simpa using same
        rw [no] at has
        cases has
      rw [only, empty, List.append_nil] at order
      rw [List.perm_singleton.1 order]
      exact ⟨_, rfl, .said spelt⟩
    | none =>
      rw [filter_written_of_none said has, List.nil_append] at order
      have alone : ∀ f ∈ nulls.filter (·.1 == some key), f = (some key, .null) := by
        intro f mem
        obtain ⟨mem, title⟩ := List.mem_filter.1 mem
        obtain ⟨name, -, -, rfl⟩ := absent f mem
        obtain rfl : name = key := by simpa using title
        rfl
      -- nobody says the same twice, so at most one `null` stands there
      match shape : nulls.filter (·.1 == some key) with
      | [] =>
        rw [shape] at order
        rw [List.perm_nil.1 order]
        exact ⟨_, rfl, .missing⟩
      | [f] =>
        rw [shape] at order alone
        rw [List.perm_singleton.1 order, alone f (List.mem_cons_self ..)]
        exact ⟨_, rfl, .null⟩
      | f :: g :: more =>
        have twice := once.filter (·.1 == some key)
        rw [shape] at twice alone
        have same : f = g := by rw [alone f (by simp), alone g (by simp)]
        exact absurd (same ▸ List.mem_cons_self ..) (List.nodup_cons.1 twice).1

theorem exists_of_mem_written {written : List (Option String × JsonTree)}
    (said : List.Forall₂ (fun f w => w.1 = some f.1 ∧ each f.1 f.2 w.2) record written)
    {w : Option String × JsonTree} (mem : w ∈ written) :
    ∃ f ∈ record, w.1 = some f.1 ∧ each f.1 f.2 w.2 := by
  induction said with
  | nil => cases mem
  | cons spelt rest ih =>
    rcases List.mem_cons.1 mem with rfl | mem
    · exact ⟨_, List.mem_cons_self .., spelt⟩
    · obtain ⟨f, here, spelt⟩ := ih mem
      exact ⟨f, List.mem_cons_of_mem _ here, spelt⟩

/-- Every field has a key. -/
theorem isSome_of_mem {fields : List (Option String × JsonTree)}
    (h : RecordSpelling optional each record (.object fields)) :
    ∀ f ∈ fields, f.1.isSome = true := by
  cases h with
  | intro said absent once other legible order =>
    intro f mem
    rcases List.mem_append.1 (order.subset mem) with mem | mem
    · rcases List.mem_append.1 mem with mem | mem
      · obtain ⟨g, -, title, -⟩ := exists_of_mem_written said mem
        rw [title]
        rfl
      · obtain ⟨key, -, -, rfl⟩ := absent f mem
        rfl
    · obtain ⟨key, -, -, title⟩ := other f mem
      rw [title]
      rfl

/-- A field that is found is the only one of its key. -/
theorem filter_of_fieldOnce? {fields : List (Option String × JsonTree)} {key : String}
    {field : Option JsonTree} (found : JsonTree.fieldOnce? fields key = some field) :
    fields.filter (·.1 == some key) = (field.map fun tree => (some key, tree)).toList := by
  unfold JsonTree.fieldOnce? at found
  split at found
  · rename_i none
    obtain rfl := Option.some.inj found
    exact none
  · rename_i alone only
    obtain rfl := Option.some.inj found
    obtain ⟨-, title⟩ := List.mem_filter.1 (only ▸ List.mem_cons_self ..)
    obtain ⟨name, tree⟩ := alone
    obtain rfl : name = some key := by simpa using title
    exact only
  · cases found

/-- The fields of two keys are those of the one and those of the other. -/
theorem perm_filter_either (fields : List (Option String × JsonTree)) {a b : String}
    (apart : a ≠ b) :
    (fields.filter fun f => f.1 == some a || f.1 == some b).Perm
      (fields.filter (·.1 == some a) ++ fields.filter (·.1 == some b)) := by
  have split := List.filter_append_perm (·.1 == some a)
    (fields.filter fun f => f.1 == some a || f.1 == some b)
  rw [List.filter_filter, List.filter_filter] at split
  have first : fields.filter (fun f => f.1 == some a && (f.1 == some a || f.1 == some b))
      = fields.filter (·.1 == some a) := by
    refine List.filter_congr fun f _ => ?_
    cases f.1 == some a <;> rfl
  have second : fields.filter (fun f => !(f.1 == some a) && (f.1 == some a || f.1 == some b))
      = fields.filter (·.1 == some b) := by
    refine List.filter_congr fun f _ => ?_
    by_cases same : f.1 = some a
    · simp [same, apart]
    · have other : (f.1 == some a) = false := beq_false_of_ne same
      simp [other]
  rw [first, second] at split
  exact split.symm

theorem mem_of_fieldOnce? {fields : List (Option String × JsonTree)} {key : String}
    {tree : JsonTree} (found : JsonTree.fieldOnce? fields key = some (some tree)) :
    (some key, tree) ∈ fields := by
  have here : (some key, tree) ∈ fields.filter (·.1 == some key) := by
    rw [filter_of_fieldOnce? found]
    exact List.mem_cons_self ..
  exact (List.mem_filter.1 here).1

/-- A decoder of a record finds under each of its keys what spells the value of that field, and
there is room for it. -/
theorem record? {tree : JsonTree} (h : RecordSpelling optional each record tree)
    (distinct : (record.map (·.1)).Nodup) {keys : List String}
    (known : ∀ key ∈ keys, record.get? key = none → key ∈ optional) {place : JsonTree.Place}
    (shallow : tree.depth ≤ place.depth) :
    ∃ found inner, tree.record? keys place = some (found, inner)
      ∧ List.Forall₂ (fun key field =>
          Found (fun json t => each key json t ∧ t.depth ≤ inner.depth) (record.get? key) field)
        keys found := by
  obtain ⟨fields, rfl⟩ : ∃ fields, tree = .object fields := by cases h; exact ⟨_, rfl⟩
  obtain ⟨depth, isSetAside⟩ := place
  have shallow : JsonTree.fieldDepths fields + 1 ≤ depth := shallow
  obtain ⟨depth, rfl⟩ : ∃ inner, depth = inner + 1 := ⟨depth - 1, by omega⟩
  have each_found : ∀ key ∈ keys, ∃ field, JsonTree.fieldOnce? fields key = some field
      ∧ Found (fun json t => each key json t ∧ t.depth ≤ depth) (record.get? key) field := by
    intro key mem
    obtain ⟨field, once, found⟩ := h.fieldOnce? distinct (known key mem)
    refine ⟨field, once, ?_⟩
    generalize record.get? key = value at found
    cases found with
    | said spelt =>
      have nests := JsonTree.depth_le_fieldDepths (mem_of_fieldOnce? once)
      exact .said ⟨spelt, Nat.le_trans nests (by omega)⟩
    | missing => exact .missing
    | null => exact .null
  have all_found : ∃ found, keys.mapM (JsonTree.fieldOnce? fields) = some found
      ∧ List.Forall₂ (fun key field =>
          Found (fun json t => each key json t ∧ t.depth ≤ depth) (record.get? key) field)
        keys found := by
    clear known
    induction keys with
    | nil => exact ⟨[], rfl, .nil⟩
    | cons key keys ih =>
      obtain ⟨field, once, first⟩ := each_found key (List.mem_cons_self ..)
      obtain ⟨found, others, rest⟩ := ih fun k mem => each_found k (List.mem_cons_of_mem _ mem)
      exact ⟨field :: found, by rw [List.mapM_cons, once, others]; rfl, .cons first rest⟩
  obtain ⟨found, read, founds⟩ := all_found
  have named : fields.all (·.1.isSome) = true := List.all_eq_true.2 h.isSome_of_mem
  refine ⟨found, ⟨depth, isSetAside⟩, ?_, founds⟩
  simp only [JsonTree.record?, named, read, if_true, Option.map_some]

/-- What spells a record stands for a value if what spells its fields does. -/
theorem legible {tree : JsonTree} (h : RecordSpelling optional each record tree)
    (values : ∀ f ∈ record, ∀ tree, each f.1 f.2 tree → tree.Legible) : tree.Legible := by
  obtain ⟨fields, rfl⟩ : ∃ fields, tree = .object fields := by cases h; exact ⟨_, rfl⟩
  refine .object h.isSome_of_mem ?_
  cases h with
  | intro said absent once other legible order =>
    intro f mem
    rcases List.mem_append.1 (order.subset mem) with mem | mem
    · rcases List.mem_append.1 mem with mem | mem
      · obtain ⟨g, here, -, spelt⟩ := exists_of_mem_written said mem
        exact values g here f.2 spelt
      · obtain ⟨key, -, -, rfl⟩ := absent f mem
        exact .null
    · exact legible f mem

/-- The fields of a record and nothing else, in any order, spell it. -/
theorem of_perm {written fields : List (Option String × JsonTree)}
    (said : List.Forall₂ (fun f w => w.1 = some f.1 ∧ each f.1 f.2 w.2) record written)
    (order : fields.Perm written) : RecordSpelling optional each record (.object fields) := by
  refine .intro said (List.forall_mem_nil _) .nil (List.forall_mem_nil _) (List.forall_mem_nil _) ?_
  rwa [List.append_nil, List.append_nil]

/-- The tree of a record spells it, if the trees of its fields spell these. -/
theorem plain (values : ∀ f ∈ record, each f.1 f.2 f.2.toTree) :
    RecordSpelling optional each record (Json.obj record).toTree := by
  rw [Json.toTree, Json.fieldTrees_eq_map]
  have said : List.Forall₂ (fun f w => w.1 = some f.1 ∧ each f.1 f.2 w.2) record
      (record.map fun f => (some f.1, f.2.toTree)) :=
    List.forall₂_map_right_iff.2 (List.forall₂_same.2 fun f mem => ⟨rfl, values f mem⟩)
  exact of_perm said (.refl _)

/-- A record's own tree stands for a value if its fields are values without doubles. -/
theorem legible_toTree {record : Json.Fields} (floatless : ∀ f ∈ record, f.2.Floatless)
    (canonical : ∀ f ∈ record, f.2.Canonical) : (Json.obj record).toTree.Legible := by
  have spelt : RecordSpelling [] (fun _ => Json.Spelling) record (Json.obj record).toTree :=
    plain fun f mem => (floatless f mem).spelling
  exact spelt.legible fun f mem tree spelt => spelt.legible (canonical f mem)

end RecordSpelling

/-! ## Decoders -/

namespace JsonTree

variable {α : Type}

/-- A decoder that gets a value out of whatever spells it, wherever there is room for it. -/
def Reads (decode : Decoder α) (spelling : JsonTree → Prop) (value : α) : Prop :=
  ∀ place tree, spelling tree → tree.depth ≤ place.depth → decode place tree = some value

theorem reads_integer {low high n : Int} (above : low ≤ n) (below : n ≤ high)
    (small : -0x8000000000000000 ≤ n ∧ n < 0x10000000000000000) :
    Reads (.integer low high) (Json.int n).Spelling n := by
  rintro place _ ⟨⟩ -
  show ((Numeral.ofInt n).int?.bind fun i => if low ≤ i ∧ i ≤ high then some i else none) = some n
  rw [Numeral.int?_ofInt small.1 small.2, Option.bind_some, if_pos ⟨above, below⟩]

theorem reads_word32 (n : UInt32) : Reads .word32 (Json.int n.toNat).Spelling n := by
  intro place tree spelt shallow
  have bound := n.toNat_lt
  have read : Decoder.integer 0 0xFFFFFFFF place tree = some (n.toNat : Int) :=
    reads_integer (by omega) (by omega) (by omega) place tree spelt shallow
  unfold Decoder.word32
  rw [read]
  simp

theorem reads_word64 (n : UInt64) : Reads .word64 (Json.int n.toNat).Spelling n := by
  intro place tree spelt shallow
  have bound := n.toNat_lt
  have read : Decoder.integer 0 0xFFFFFFFFFFFFFFFF place tree = some (n.toNat : Int) :=
    reads_integer (by omega) (by omega) (by omega) place tree spelt shallow
  unfold Decoder.word64
  rw [read]
  simp

theorem reads_truth (b : Bool) : Reads .truth (Json.bool b).Spelling b := by
  rintro place _ ⟨⟩ -
  rfl

theorem reads_text (s : String) : Reads .text (Json.str s).Spelling s := by
  rintro place _ ⟨⟩ -
  rfl

theorem reads_named {ofName? : String → Option α} {name : String} {a : α}
    (known : ofName? name = some a) : Reads (.named ofName?) (Json.str name).Spelling a := by
  rintro place _ ⟨⟩ -
  exact known

theorem reads_free (value : Json.Value) : Reads .free value.json.Spelling value := by
  intro place tree spelt shallow
  have read := spelt.value? value.canonical shallow
  unfold Decoder.free freeValue?
  split
  · rename_i none
    rw [none] at read
    cases read
  · rename_i json found
    exact congrArg some (Json.Value.ext (Option.some.inj (found.symm.trans read)))

variable {each : Json → JsonTree → Prop} {place : Place} {field : Option JsonTree}
  {decode : Decoder α}

/-- A field that must be there is decoded. -/
theorem need_of_found {value? : Option Json} {json : Json} {a : α}
    (found : Found (fun j t => each j t ∧ t.depth ≤ place.depth) value? field)
    (reads : Reads decode (each json) a) (same : value? = some json) :
    need decode place field = some a := by
  subst same
  cases found with
  | said spelt => exact reads place _ spelt.1 spelt.2

/-- A field that may be missing is decoded, whether it is there, missing or `null`. -/
theorem may_of_found {value? : Option Json} {encode : α → Json} {value : Option α}
    (found : Found (fun j t => each j t ∧ t.depth ≤ place.depth) value? field)
    (reads : ∀ a, Reads decode (each (encode a)) a) (solid : ∀ a, ¬ each (encode a) .null)
    (same : value? = value.map encode) : may decode place field = some value := by
  subst same
  cases value with
  | none => cases found <;> rfl
  | some a =>
    cases found with
    | @said _ tree spelt =>
      unfold may
      split
      · rename_i none
        cases none
      · rename_i null
        cases Option.some.inj null
        exact absurd spelt.1 (solid a)
      · rename_i same
        cases Option.some.inj same
        rw [reads a place tree spelt.1 spelt.2, Option.map_some]

/-- A field that is written always is decoded even if it might be missing. -/
theorem mayElse_of_found {value? : Option Json} {json : Json} {default a : α}
    (found : Found (fun j t => each j t ∧ t.depth ≤ place.depth) value? field)
    (reads : Reads decode (each json) a) (same : value? = some json) :
    mayElse default decode place field = some a := by
  subst same
  cases found with
  | said spelt => exact reads place _ spelt.1 spelt.2

end JsonTree

end CastHub
