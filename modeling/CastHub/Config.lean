import CastHub.Json.Reader
import CastHub.RunStep
/-!
# Configuration

A configuration is a JSON object whose settings stand three levels deep: module, tag, key.

* `Config.get?` reads a setting; what stands where an object is expected hides what would lie
  below it.
* `Config.set` writes one, replacing by objects whatever stands in the way.
* `Config.overlay` writes every setting of another configuration. Parts of the other configuration
  that are not three levels deep are passed over.
* `Limits` are the quotas that a configuration asks for.
-/

namespace CastHub

/-- A configuration document: a canonical JSON object. -/
structure Config where
  fields : Json.Fields
  canonical : Json.Canonical (.obj fields)

/-- Why a text is no configuration. -/
inductive ConfigError where
  /-- There was nothing to read, or what was read is not UTF-8. -/
  | unreadable
  | notJson
  | notAnObject
deriving Repr, DecidableEq

namespace ConfigError

/-- The sentence shown to people when a document has the wrong shape. -/
def notAnObjectMessage : String := "Configuration root must be an object"

end ConfigError

namespace Json

/-- The fields of a value, none unless it is an object. -/
def fieldsOrEmpty : Json → Json.Fields
  | .obj fields => fields
  | _ => []

/-- The fields of a canonical value make a canonical object. -/
theorem Canonical.fieldsOrEmpty {json : Json} (h : json.Canonical) :
    Canonical (.obj json.fieldsOrEmpty) := by
  cases h with
  | obj sorted each => exact .obj sorted each
  | _ => exact .empty

end Json

namespace Config

/-- The empty configuration. -/
def empty : Config := ⟨[], .empty⟩

instance : Inhabited Config := ⟨empty⟩

/-- Two configurations with the same fields are the same. -/
theorem ext {a b : Config} (h : a.fields = b.fields) : a = b := by
  cases a; cases b; cases h; rfl

/-- The whole document. -/
def toJson (config : Config) : Json := .obj config.fields

/-- A configuration from a value. -/
def ofValue : Json.Value → Except ConfigError Config
  | ⟨.obj fields, canonical⟩ => .ok ⟨fields, canonical⟩
  | _ => .error .notAnObject

/-- A configuration from a text. -/
def parse (text : String) : Except ConfigError Config :=
  match Json.Value.parse? text with
  | none => .error .notJson
  | some value => ofValue value

/-- A configuration from the content of a file; `none` if there is no file. -/
def load (content : Option ByteArray) : Except ConfigError Config :=
  match content.bind String.fromUTF8? with
  | none => .error .unreadable
  | some text => parse text

/-- The value of a setting. -/
def get? (config : Config) (module tag key : String) : Option Json :=
  ((config.fields.get? module).bind (Json.field? · tag)).bind (Json.field? · key)

/-- The value of a setting that is an integer of 32 bits; any other value counts as absent. -/
def getInt? (config : Config) (module tag key : String) : Option Int :=
  ((config.get? module tag key).bind Json.int?).filter fun n => -0x80000000 ≤ n && n < 0x80000000

/-- The fields under a key of an object, none unless an object stands there. -/
def branch (fields : Json.Fields) (key : String) : Json.Fields :=
  ((fields.get? key).getD .null).fieldsOrEmpty

/-- The fields under a key of a canonical object make a canonical object. -/
theorem canonical_branch {fields : Json.Fields} (h : Json.Canonical (.obj fields))
    (key : String) : Json.Canonical (.obj (branch fields key)) := by
  unfold branch
  cases found : fields.get? key with
  | none => exact .empty
  | some value => exact (h.of_get? found).fieldsOrEmpty

/-- Writes a setting. -/
def set (config : Config) (module tag key : String) (value : Json.Value) : Config :=
  let tags := branch config.fields module
  let keys := Table.put key value.json (branch tags tag)
  { fields := Table.put module (.obj (Table.put tag (.obj keys) tags)) config.fields
    canonical :=
      have htags := canonical_branch config.canonical module
      config.canonical.put (htags.put ((canonical_branch htags tag).put value.canonical)) }

/-- A setting: its path and its value. -/
structure Setting where
  module : String
  tag : String
  key : String
  value : Json.Value

/-- Writes a setting. -/
def apply (config : Config) (s : Setting) : Config := config.set s.module s.tag s.key s.value

/-- The fields of a canonical object, each with a canonical value. -/
def entries (fields : Json.Fields) (h : Json.Canonical (.obj fields)) :
    List (String × Json.Value) :=
  fields.attach.map fun ⟨f, mem⟩ =>
    (f.1, ⟨f.2, by cases h with | obj sorted each => exact each f mem⟩)

/-- The settings directly under an object: none unless it is an object. -/
def entriesOf (value : Json.Value) : List (String × Json.Value) :=
  entries value.json.fieldsOrEmpty value.canonical.fieldsOrEmpty

/-- Every setting of a configuration, by module, tag and key. -/
def settings (config : Config) : List Setting :=
  (entries config.fields config.canonical).flatMap fun (module, tags) =>
    (entriesOf tags).flatMap fun (tag, keys) =>
      (entriesOf keys).map fun (key, value) => ⟨module, tag, key, value⟩

/-- Writes every setting of another configuration over this one. -/
def overlay (base push : Config) : Config := push.settings.foldl apply base

end Config

/-- The greatest numbers of contexts, sinks and sources. -/
structure Limits where
  contexts : Nat := 10
  sinks : Nat := 10
  sources : Nat := 20
deriving Repr, DecidableEq

namespace Limits

/-- The limits that a configuration asks for; a limit that is missing, negative or no integer of 32
bits stays at its default. -/
def ofConfig (config : Config) : Limits :=
  let read (key : String) (fallback : Nat) : Nat :=
    match config.getInt? "context" "agentLimit" key with
    | some n => if 0 ≤ n then n.toNat else fallback
    | none => fallback
  { contexts := read "maxContext" 10
    sinks := read "maxSinkAgent" 10
    sources := read "maxSrcAgent" 20 }

/-- The limit on agents of a role. -/
def agents (limits : Limits) : Role → Nat
  | .sink => limits.sinks
  | .source => limits.sources

end Limits

/-- Whether a configuration turns the network log on; `none` if it does not say. Any number but one
turns it off. -/
def Config.networkLog? (config : Config) : Option Bool :=
  (config.getInt? "network" "networkLimit" "logOn").map (· == 1)

end CastHub
