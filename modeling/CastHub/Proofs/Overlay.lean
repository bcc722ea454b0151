import CastHub.Config
import CastHub.Proofs.Table
import Mathlib.Data.List.Nodup
/-!
# Laws of configurations

A configuration is a store of settings (`Config.get?_set`), and storing one obeys the laws of a
lens: what is there need not be stored (`Config.set_self`), the later of two values counts
(`Config.set_set`), and settings with different paths do not get into each other's way
(`Config.set_comm`).

Laying a configuration over another one writes all its settings, in the order of their paths. By the
laws any other order would do, so only what the settings are counts (`Config.mem_settings`), and
writing one setting more before is writing it after (`Config.overlay_apply`). All else follows
(`Config.overlays_write_settings`).
-/

namespace CastHub

namespace Json

theorem Canonical.sorted {fields : Fields} (h : Canonical (.obj fields)) : Table.Sorted fields := by
  cases h with
  | obj sorted each => exact sorted

/-- What stands in a value is what stands among its fields. -/
theorem get?_fieldsOrEmpty (json : Json) (key : String) :
    Table.get? json.fieldsOrEmpty key = json.field? key := by
  cases json <;> rfl

end Json

namespace Config

variable {c : Config} {module tag key module' tag' key' : String} {value value' : Json.Value}

/-! ## Reading -/

theorem get?_branch (fields : Json.Fields) (name key : String) :
    Table.get? (branch fields name) key = (fields.get? name).bind (Json.field? · key) := by
  unfold branch
  rw [Json.get?_fieldsOrEmpty]
  cases fields.get? name <;> rfl

/-- A setting is found on its way through the branches. -/
theorem get?_eq (c : Config) (module tag key : String) :
    c.get? module tag key = Table.get? (branch (branch c.fields module) tag) key := by
  rw [get?_branch, get?_branch]
  rfl

/-- A setting that is found stands below two objects. -/
theorem exists_of_get? {json : Json} (found : c.get? module tag key = some json) :
    ∃ tags keys, c.fields.get? module = some (.obj tags) ∧ Table.get? tags tag = some (.obj keys) ∧
      Table.get? keys key = some json := by
  obtain ⟨inTag, there, below⟩ := Option.bind_eq_some_iff.1 found
  obtain ⟨inModule, here, within⟩ := Option.bind_eq_some_iff.1 there
  cases inModule with
  | obj tags =>
    cases inTag with
    | obj keys => exact ⟨tags, keys, here, within, below⟩
    | _ => cases below
  | _ => cases within

/-! ## Writing below a name -/

/-- Changes the fields under a name. Whatever is no object there gives way to one. -/
def graft (name : String) (change : Json.Fields → Json.Fields) (fields : Json.Fields) :
    Json.Fields :=
  Table.put name (.obj (change (branch fields name))) fields

/-- Writing a setting is changing the fields of its tag among those of its module. -/
theorem fields_set (c : Config) (module tag key : String) (value : Json.Value) :
    (c.set module tag key value).fields
      = graft module (graft tag (Table.put key value.json)) c.fields := rfl

theorem branch_graft (name other : String) (change : Json.Fields → Json.Fields)
    (fields : Json.Fields) :
    branch (graft name change fields) other
      = if other = name then change (branch fields name) else branch fields other := by
  unfold graft branch
  rw [Table.get?_put]
  split <;> rfl

/-- Only what a change makes of the fields under the name counts. -/
theorem graft_congr {name : String} {change change' : Json.Fields → Json.Fields}
    {fields : Json.Fields} (same : change (branch fields name) = change' (branch fields name)) :
    graft name change fields = graft name change' fields := by
  unfold graft
  rw [same]

theorem graft_graft (name : String) (first second : Json.Fields → Json.Fields)
    (fields : Json.Fields) :
    graft name second (graft name first fields) = graft name (second ∘ first) fields := by
  have inside := branch_graft name name first fields
  rw [if_pos rfl] at inside
  show Table.put name (.obj (second (branch (graft name first fields) name)))
    (graft name first fields) = _
  rw [inside]
  exact Table.put_put

theorem graft_comm {name other : String} (apart : name ≠ other)
    (change change' : Json.Fields → Json.Fields) {fields : Json.Fields}
    (sorted : Table.Sorted fields) :
    graft name change (graft other change' fields)
      = graft other change' (graft name change fields) := by
  have outside := branch_graft other name change' fields
  have outside' := branch_graft name other change fields
  rw [if_neg apart] at outside
  rw [if_neg apart.symm] at outside'
  show Table.put name (Json.obj (change (branch (graft other change' fields) name))) _
    = Table.put other (Json.obj (change' (branch (graft name change fields) other))) _
  rw [outside, outside']
  exact Table.put_comm apart sorted

/-- A change that leaves the fields under a name as they are changes nothing. -/
theorem graft_self {name : String} {change : Json.Fields → Json.Fields}
    {fields inside : Json.Fields} (sorted : Table.Sorted fields)
    (found : fields.get? name = some (.obj inside)) (same : change inside = inside) :
    graft name change fields = fields := by
  have there : branch fields name = inside := by
    unfold branch
    rw [found]
    rfl
  unfold graft
  rw [there, same]
  exact Table.put_self sorted found

/-! ## Writing one setting -/

/-- **Writing a setting changes it, and no other.** -/
theorem get?_set (c : Config) (module tag key : String) (value : Json.Value)
    (module' tag' key' : String) :
    (c.set module tag key value).get? module' tag' key'
      = if module' = module ∧ tag' = tag ∧ key' = key then some value.json
        else c.get? module' tag' key' := by
  rw [get?_eq, get?_eq, fields_set, branch_graft]
  by_cases isModule : module' = module
  · rw [if_pos isModule, branch_graft]
    by_cases isTag : tag' = tag
    · rw [if_pos isTag, Table.get?_put, isModule, isTag]
      simp
    · rw [if_neg isTag, if_neg fun same => isTag same.2.1, isModule]
  · rw [if_neg isModule, if_neg fun same => isModule same.1]

/-- Writing what is there changes nothing. -/
theorem set_self (found : c.get? module tag key = some value.json) :
    c.set module tag key value = c := by
  obtain ⟨tags, keys, here, within, below⟩ := exists_of_get? found
  have inTags : Json.Canonical (.obj tags) := c.canonical.of_get? here
  have inKeys : Json.Canonical (.obj keys) := inTags.of_get? within
  have kept : graft tag (Table.put key value.json) tags = tags :=
    graft_self inTags.sorted within (Table.put_self inKeys.sorted below)
  refine ext ?_
  rw [fields_set]
  exact graft_self c.canonical.sorted here kept

/-- Of two values for a setting the later one counts. -/
theorem set_set (c : Config) (module tag key : String) (value value' : Json.Value) :
    (c.set module tag key value).set module tag key value' = c.set module tag key value' := by
  refine ext ?_
  rw [fields_set, fields_set, fields_set, graft_graft]
  refine graft_congr ?_
  rw [Function.comp_apply, graft_graft]
  exact graft_congr Table.put_put

/-- Settings with different paths may be written in either order. -/
theorem set_comm (c : Config) (value value' : Json.Value)
    (apart : ¬ (module = module' ∧ tag = tag' ∧ key = key')) :
    (c.set module' tag' key' value').set module tag key value
      = (c.set module tag key value).set module' tag' key' value' := by
  refine ext ?_
  rw [fields_set, fields_set, fields_set, fields_set]
  by_cases isModule : module = module'
  · subst isModule
    have inTags := canonical_branch c.canonical module
    rw [graft_graft, graft_graft]
    refine graft_congr ?_
    rw [Function.comp_apply, Function.comp_apply]
    by_cases isTag : tag = tag'
    · subst isTag
      have isKey : key ≠ key' := fun same => apart ⟨rfl, rfl, same⟩
      have inKeys := canonical_branch inTags tag
      rw [graft_graft, graft_graft]
      exact graft_congr (Table.put_comm isKey inKeys.sorted)
    · exact graft_comm isTag _ _ inTags.sorted
  · exact graft_comm isModule _ _ c.canonical.sorted

/-! ## All settings -/

/-- Where a setting stands. -/
def Setting.path (s : Setting) : String × String × String := (s.module, s.tag, s.key)

theorem Setting.eq_of_same {s s' : Setting} (path : s.path = s'.path)
    (value : s.value.json = s'.value.json) : s = s' := by
  obtain ⟨module, tag, key, given⟩ := s
  obtain ⟨module', tag', key', given'⟩ := s'
  obtain ⟨rfl, rest⟩ := Prod.mk.inj path
  obtain ⟨rfl, rfl⟩ := Prod.mk.inj rest
  obtain rfl : given = given' := Json.Value.ext value
  rfl

theorem mem_entries {fields : Json.Fields} (h : Json.Canonical (.obj fields)) {name : String}
    {value : Json.Value} :
    (name, value) ∈ entries fields h ↔ fields.get? name = some value.json := by
  unfold entries
  constructor
  · intro mem
    obtain ⟨⟨f, there⟩, -, same⟩ := List.mem_map.1 mem
    obtain ⟨rfl, rfl⟩ := Prod.mk.inj same
    exact Table.get?_of_mem h.sorted there
  · intro found
    refine List.mem_map.2 ⟨⟨(name, value.json), Table.mem_of_get? found⟩, List.mem_attach .., ?_⟩
    rfl

theorem mem_entriesOf {inside value : Json.Value} {name : String} :
    (name, value) ∈ entriesOf inside ↔ inside.json.field? name = some value.json := by
  unfold entriesOf
  rw [mem_entries, Json.get?_fieldsOrEmpty]

/-- **The settings of a configuration are those that are found in it.** -/
theorem mem_settings {s : Setting} :
    s ∈ c.settings ↔ c.get? s.module s.tag s.key = some s.value.json := by
  unfold settings
  simp only [List.mem_flatMap, List.mem_map]
  constructor
  · rintro ⟨⟨module, tags⟩, inRoot, ⟨tag, keys⟩, inTags, ⟨key, value⟩, inKeys, rfl⟩
    rw [mem_entries] at inRoot
    rw [mem_entriesOf] at inTags inKeys
    show ((c.fields.get? module).bind (Json.field? · tag)).bind (Json.field? · key) = _
    rw [inRoot, Option.bind_some, inTags, Option.bind_some, inKeys]
  · intro found
    obtain ⟨tags, keys, here, within, below⟩ := exists_of_get? found
    have inTags : Json.Canonical (.obj tags) := c.canonical.of_get? here
    have inKeys : Json.Canonical (.obj keys) := inTags.of_get? within
    exact ⟨(s.module, ⟨.obj tags, inTags⟩), (mem_entries c.canonical).2 here,
      (s.tag, ⟨.obj keys, inKeys⟩), mem_entriesOf.2 within, (s.key, s.value), mem_entriesOf.2 below,
      rfl⟩

/-- The settings of a configuration differ in their paths. -/
theorem eq_of_path {s s' : Setting} (mem : s ∈ c.settings) (mem' : s' ∈ c.settings)
    (same : s.path = s'.path) : s = s' := by
  have found : some s.value.json = c.get? s.path.1 s.path.2.1 s.path.2.2 :=
    (mem_settings.1 mem).symm
  rw [same] at found
  exact Setting.eq_of_same same (Option.some.inj (found.trans (mem_settings.1 mem')))

theorem pairwise_entries {fields : Json.Fields} (h : Json.Canonical (.obj fields)) :
    (entries fields h).Pairwise fun a b => a.1 ≠ b.1 := by
  have names : (entries fields h).map Prod.fst = fields.map Prod.fst := by
    unfold entries
    rw [List.map_map]
    show fields.attach.map (fun f => Prod.fst f.val) = _
    exact List.attach_map_val ..
  have rising : (fields.map Prod.fst).Pairwise (· < ·) := List.pairwise_map.2 h.sorted
  rw [← names] at rising
  refine (List.pairwise_map.1 rising).imp ?_
  intro a b below same
  exact Std.lt_irrefl (same ▸ below)

/-- What stands under different names is different, if it shows its name. -/
theorem nodup_flatMap_of_names {β : Type} {list : List (String × Json.Value)}
    {below : String × Json.Value → List β} (nameOf : β → String)
    (names : list.Pairwise fun a b => a.1 ≠ b.1) (each : ∀ e ∈ list, (below e).Nodup)
    (named : ∀ e, ∀ b ∈ below e, nameOf b = e.1) : (list.flatMap below).Nodup := by
  refine List.nodup_flatMap.2 ⟨each, names.imp fun {e e'} apart => ?_⟩
  intro b mem mem'
  exact apart ((named e b mem).symm.trans (named e' b mem'))

theorem nodup_settings (c : Config) : c.settings.Nodup := by
  have inside : ∀ value : Json.Value, (entriesOf value).Pairwise fun a b => a.1 ≠ b.1 :=
    fun value => pairwise_entries value.canonical.fieldsOrEmpty
  refine nodup_flatMap_of_names Setting.module (pairwise_entries c.canonical) ?_ ?_
  · rintro ⟨module, tags⟩ -
    refine nodup_flatMap_of_names Setting.tag (inside tags) ?_ ?_
    · rintro ⟨tag, keys⟩ -
      refine List.pairwise_map.2 ((inside keys).imp fun apart same => ?_)
      exact apart (congrArg Setting.key same)
    · rintro ⟨tag, keys⟩ s mem
      obtain ⟨e, -, rfl⟩ := List.mem_map.1 mem
      rfl
  · rintro ⟨module, tags⟩ s mem
    obtain ⟨e, -, mem⟩ := List.mem_flatMap.1 mem
    obtain ⟨e', -, rfl⟩ := List.mem_map.1 mem
    rfl

/-! ## Writing many settings -/

theorem get?_apply (c : Config) (s : Setting) (module tag key : String) :
    (c.apply s).get? module tag key
      = if (module, tag, key) = s.path then some s.value.json else c.get? module tag key := by
  unfold apply Setting.path
  rw [get?_set]
  simp only [Prod.mk.injEq]

theorem apply_comm (c : Config) {s s' : Setting} (apart : s.path ≠ s'.path) :
    (c.apply s').apply s = (c.apply s).apply s' :=
  c.set_comm s.value s'.value fun same =>
    apart (Prod.ext same.1 (Prod.ext same.2.1 same.2.2))

theorem apply_apply (c : Config) {s s' : Setting} (same : s'.path = s.path) :
    (c.apply s').apply s = c.apply s := by
  obtain ⟨isModule, rest⟩ := Prod.mk.inj same
  obtain ⟨isTag, isKey⟩ := Prod.mk.inj rest
  unfold apply
  rw [isModule, isTag, isKey]
  exact c.set_set ..

/-- A setting that is written last may as well be written first, if no other one has its path. -/
theorem apply_foldl {list : List Setting} {s : Setting} (apart : ∀ x ∈ list, x.path ≠ s.path)
    (c : Config) : (list.foldl apply c).apply s = list.foldl apply (c.apply s) := by
  induction list generalizing c with
  | nil => rfl
  | cons x rest ih =>
    have first := apart x (List.mem_cons_self ..)
    show (rest.foldl apply (c.apply x)).apply s = rest.foldl apply ((c.apply s).apply x)
    rw [ih fun y mem => apart y (List.mem_cons_of_mem _ mem), c.apply_comm first.symm]

/-- The settings with other paths than a given one. -/
def besides (s : Setting) (list : List Setting) : List Setting := list.filter (·.path ≠ s.path)

theorem mem_besides {s x : Setting} {list : List Setting} :
    x ∈ besides s list ↔ x ∈ list ∧ x.path ≠ s.path := by
  unfold besides
  rw [List.mem_filter, decide_eq_true_iff]

/-- What is overwritten in the end need not be written. -/
theorem apply_foldl_besides (list : List Setting) (s : Setting) (c : Config) :
    (list.foldl apply c).apply s = ((besides s list).foldl apply c).apply s := by
  have last : ∀ c : Config, ∀ rest, ((besides s rest).foldl apply c).apply s
      = (besides s rest).foldl apply (c.apply s) := fun c rest =>
    apply_foldl (fun x mem => (mem_besides.1 mem).2) c
  induction list generalizing c with
  | nil => rfl
  | cons x rest ih =>
    show (rest.foldl apply (c.apply x)).apply s = _
    by_cases isIt : x.path = s.path
    · have passed : besides s (x :: rest) = besides s rest :=
        List.filter_cons_of_neg (by simpa using isIt)
      rw [ih, passed, last, last, apply_apply c isIt]
    · have kept : besides s (x :: rest) = x :: besides s rest :=
        List.filter_cons_of_pos (by simpa using isIt)
      rw [ih, kept]
      rfl

/-- The order in which the settings of a configuration are written does not matter. -/
theorem foldl_apply_of_perm {list : List Setting} (perm : list.Perm c.settings) (base : Config) :
    list.foldl apply base = base.overlay c := by
  refine perm.foldl_eq' (fun s mem s' mem' d => ?_) base
  by_cases same : s.path = s'.path
  · rw [eq_of_path (perm.mem_iff.1 mem) (perm.mem_iff.1 mem') same]
  · exact d.apply_comm (Ne.symm same)

/-- A configuration with one setting more has that setting, and the old ones with other paths. -/
theorem perm_settings_apply (c : Config) (s : Setting) :
    (besides s c.settings ++ [s]).Perm (c.apply s).settings := by
  have nodup : (besides s c.settings ++ [s]).Nodup := by
    refine List.nodup_append.2 ⟨c.nodup_settings.filter _, List.nodup_singleton s, ?_⟩
    rintro x mem y isLast rfl
    obtain rfl := List.mem_singleton.1 isLast
    exact (mem_besides.1 mem).2 rfl
  refine (List.perm_ext_iff_of_nodup nodup (nodup_settings _)).2 fun x => ?_
  rw [List.mem_append, mem_besides, List.mem_singleton, mem_settings, mem_settings, get?_apply]
  show _ ↔ (if x.path = s.path then _ else _) = _
  by_cases same : x.path = s.path
  · rw [if_pos same]
    constructor
    · rintro (⟨_, apart⟩ | rfl)
      · exact absurd same apart
      · rfl
    · intro found
      exact .inr (Setting.eq_of_same same (Option.some.inj found).symm)
  · rw [if_neg same]
    constructor
    · rintro (⟨found, _⟩ | rfl)
      · exact found
      · exact absurd rfl same
    · intro found
      exact .inl ⟨found, same⟩

/-- **Writing a setting and then all that is, is the same as writing it after.** -/
theorem overlay_apply (base c : Config) (s : Setting) :
    base.overlay (c.apply s) = (base.overlay c).apply s := by
  rw [← foldl_apply_of_perm (c.perm_settings_apply s), List.foldl_append]
  exact (apply_foldl_besides c.settings s base).symm

/-! ## Overlays -/

theorem foldl_apply_self {list : List Setting} (there : list ⊆ c.settings) :
    list.foldl apply c = c := by
  induction list with
  | nil => rfl
  | cons s rest ih =>
    have first : c.apply s = c := set_self (mem_settings.1 (there (List.mem_cons_self ..)))
    show rest.foldl apply (c.apply s) = c
    rw [first]
    exact ih fun x mem => there (List.mem_cons_of_mem _ mem)

/-- Laying a configuration over itself changes nothing. -/
theorem overlay_self (c : Config) : c.overlay c = c := foldl_apply_self (List.Subset.refl _)

theorem overlay_foldl_apply (a b : Config) (list : List Setting) :
    a.overlay (list.foldl apply b) = list.foldl apply (a.overlay b) := by
  induction list generalizing b with
  | nil => rfl
  | cons s rest ih =>
    show a.overlay (rest.foldl apply (b.apply s)) = rest.foldl apply ((a.overlay b).apply s)
    rw [ih, overlay_apply]

/-- Laying two configurations over a third one, together or one after the other. -/
theorem overlay_overlay (a b c : Config) : a.overlay (b.overlay c) = (a.overlay b).overlay c :=
  overlay_foldl_apply a b c.settings

/-- What no setting is written to stays as it is. -/
theorem get?_foldl_apply_of_ne {list : List Setting}
    (apart : ∀ s ∈ list, (module, tag, key) ≠ s.path) (c : Config) :
    (list.foldl apply c).get? module tag key = c.get? module tag key := by
  induction list generalizing c with
  | nil => rfl
  | cons s rest ih =>
    show (rest.foldl apply (c.apply s)).get? module tag key = _
    rw [ih fun x mem => apart x (List.mem_cons_of_mem _ mem), get?_apply,
      if_neg (apart s (List.mem_cons_self ..))]

/-- **What is found under an overlay.** -/
theorem get?_overlay (a b : Config) (module tag key : String) :
    (a.overlay b).get? module tag key = (b.get? module tag key).or (a.get? module tag key) := by
  cases found : b.get? module tag key with
  | none =>
    rw [Option.none_or]
    refine get?_foldl_apply_of_ne (fun s mem same => ?_) a
    obtain ⟨rfl, rest⟩ := Prod.mk.inj same
    obtain ⟨rfl, rfl⟩ := Prod.mk.inj rest
    rw [mem_settings.1 mem] at found
    cases found
  | some json =>
    -- the setting is there, so it may be written once more, and last
    obtain ⟨tags, keys, here, within, below⟩ := exists_of_get? found
    have inTags : Json.Canonical (.obj tags) := b.canonical.of_get? here
    have inKeys : Json.Canonical (.obj keys) := inTags.of_get? within
    let s : Setting := ⟨module, tag, key, ⟨json, inKeys.of_get? below⟩⟩
    have again : b.apply s = b := set_self found
    rw [← again, overlay_apply, get?_apply]
    exact if_pos rfl

/-- **Overlays write settings.** Under an overlay the overlay's settings are found, and where it has
none the old ones; writing one setting changes it and no other; an overlay that is laid twice counts
once; and two overlays may be laid one over the other first. -/
theorem overlays_write_settings (a b c : Config) :
    (∀ module tag key, (a.overlay b).get? module tag key
      = (b.get? module tag key).or (a.get? module tag key)) ∧
    (∀ module tag key value module' tag' key',
      (a.set module tag key value).get? module' tag' key'
        = if module' = module ∧ tag' = tag ∧ key' = key then some value.json
          else a.get? module' tag' key') ∧
    (a.overlay b).overlay b = a.overlay b ∧
    a.overlay (b.overlay c) = (a.overlay b).overlay c := by
  refine ⟨a.get?_overlay b, a.get?_set, ?_, overlay_overlay a b c⟩
  rw [← overlay_overlay, overlay_self]

end Config

end CastHub
