import CastHub.Config
import CastHub.Event.Codec
import CastHub.Proofs.Spelling
import Mathlib.Data.List.Permutation
/-!
# Every spelling of an event is read

Writer and reader of events are separate: `toJson` names the fields of each message, and `decode`
names them again. They agree on every field of every payload: the text of an event is read as that
event, and so is any other spelling of it. Three kinds of records lie inside each other, the event,
its payload and the payload's message; in each of them fields may change places, unknown ones may
be added, and absent ones may be `null`.

* `Event.Spelling` : the trees that spell an event, record by record (`Payload.Spelling`,
  `Payload.FieldSpelling`, `Payload.optional`);
* `AgentMsg.reads_decode` and its like : each message is read from whatever spells it;
* `Payload.reads_decode` : so is a payload, also when its message stands before its kind and has to
  be set aside;
* `Event.spellings_are_read` : so are events, from texts.
-/

namespace CastHub

open JsonTree (need may mayElse Reads reads_word32 reads_word64 reads_truth reads_text reads_named
  reads_free need_of_found may_of_found mayElse_of_found)

/-! ## Names -/

theorem Role.ofName?_name (r : Role) : ofName? r.name = some r := by cases r <;> rfl

theorem RunStep.ofName?_name (s : RunStep) : ofName? s.name = some s := by cases s <;> rfl

theorem Fault.ofName?_name (f : Fault) : ofName? f.name = some f := by cases f <;> rfl

theorem Subsystem.ofName?_name (s : Subsystem) : ofName? s.name = some s := by cases s <;> rfl

theorem PayloadKind.ofName?_name (k : PayloadKind) : ofName? k.name = some k := by cases k <;> rfl

/-- Whatever stands in a list of different names is found by its name. -/
theorem find?_name {α : Type} {name : α → String} {all : List α} (distinct : (all.map name).Nodup)
    {a : α} (mem : a ∈ all) : all.find? (name · == name a) = some a := by
  induction all with
  | nil => cases mem
  | cons b all ih =>
    obtain ⟨apart, distinct⟩ := List.nodup_cons.1 distinct
    by_cases same : name b = name a
    · have here : a ∉ all := fun mem => apart (same ▸ List.mem_map_of_mem mem)
      obtain rfl := (List.mem_cons.1 mem).resolve_right here
      rw [List.find?_cons_of_pos (by simp)]
    · have later : a ∈ all := (List.mem_cons.1 mem).resolve_left fun eq => same (eq ▸ rfl)
      rw [List.find?_cons_of_neg (by simpa using same), ih distinct later]

theorem EventKind.mem_all (k : EventKind) : k ∈ all := by
  cases k with
  | command c => cases c <;> decide
  | prosumerState c => cases c <;> decide
  | changeMedia r c => cases r <;> cases c <;> decide
  | _ => decide

/-- Every kind is found by its name, also the one that peers spell their own way. -/
theorem EventKind.ofName?_name (k : EventKind) : ofName? k.name = some k :=
  find?_name (by decide +kernel) k.mem_all

/-! ## Fields -/

@[simp] theorem Table.get?_append {κ α : Type} [DecidableEq κ] (first second : Table κ α)
    (key : κ) :
    Table.get? (first ++ second) key = (first.get? key).or (second.get? key) := by
  induction first with
  | nil => rfl
  | cons head rest ih =>
    obtain ⟨k, v⟩ := head
    rw [List.cons_append, get?, get?, ih]
    split <;> rfl

@[simp] theorem get?_optionalField {α : Type} (name key : String) (encode : α → Json)
    (value : Option α) :
    Table.get? (optionalField name encode value) key
      = if key = name then value.map encode else none := by
  cases value with
  | none => simp [optionalField, Table.get?]
  | some a => rfl

@[simp] theorem Table.get?_nil {κ α : Type} [DecidableEq κ] (key : κ) :
    Table.get? ([] : Table κ α) key = none := rfl

@[simp] theorem Table.get?_cons {κ α : Type} [DecidableEq κ] (head : κ × α) (rest : Table κ α)
    (key : κ) :
    Table.get? (head :: rest) key = if key = head.1 then some head.2 else rest.get? key :=
  rfl

@[simp] theorem Json.fieldsOrEmpty_obj (fields : Fields) :
    (Json.obj fields).fieldsOrEmpty = fields := rfl

theorem canonical_idJson (id : Id) : (idJson id).Canonical := by
  have bound := id.toNat_lt
  exact .int (by omega) (by omega)

theorem forall_mem_optionalField {α : Type} {P : Json → Prop} {name : String} {encode : α → Json}
    {value : Option α} (each : ∀ a, P (encode a)) :
    ∀ f ∈ optionalField name encode value, P f.2 := by
  cases value with
  | none => exact List.forall_mem_nil _
  | some a => exact List.forall_mem_singleton.2 (each a)

theorem canonical_word64 (n : UInt64) : (Json.int n.toNat).Canonical := by
  have bound := n.toNat_lt
  exact .int (by omega) (by omega)

/-! ## Messages -/

namespace ContextMsg

theorem nodup_keys (m : ContextMsg) : (m.toJson.fieldsOrEmpty.map (·.1)).Nodup := by
  simp [toJson]

/-- A context message is read from every tree that spells it. -/
theorem reads_decode (m : ContextMsg) :
    Reads decode (RecordSpelling [] (fun _ => Json.Spelling) m.toJson.fieldsOrEmpty) m := by
  intro place tree spelt shallow
  have known : ∀ key ∈ ["class_name", "agent_type", "agent_id", "sink_agent_id", "interaction_id"],
      Table.get? m.toJson.fieldsOrEmpty key = none → key ∈ ([] : List String) := by
    simp [toJson]
  obtain ⟨_, inner, read, founds⟩ := spelt.record? m.nodup_keys known shallow
  obtain _ | ⟨className, _ | ⟨role, _ | ⟨agent, _ | ⟨sink, _ | ⟨interaction, _ | _⟩⟩⟩⟩⟩ := founds
  have className := need_of_found className (reads_text m.className) (by simp [toJson])
  have role := need_of_found role (reads_named m.role.ofName?_name) (by simp [toJson])
  have agent := need_of_found agent (reads_word32 m.agent) (by simp [toJson, idJson])
  have sink := need_of_found sink (reads_word32 m.sink) (by simp [toJson, idJson])
  have interaction :=
    need_of_found interaction (reads_word32 m.interaction) (by simp [toJson, idJson])
  simp only [decode, read, Option.bind_eq_bind, Option.bind_some, className, role, agent, sink,
    interaction]

end ContextMsg

namespace AgentMsg

/-- The optional fields of an agent message. -/
def optional : List String := ["surface_id", "error_code"]

theorem nodup_keys (m : AgentMsg) : (m.toJson.fieldsOrEmpty.map (·.1)).Nodup := by
  obtain ⟨agent, surface, main, fault⟩ := m
  cases surface <;> cases fault <;> simp [toJson, optionalField]

/-- An agent message is read from every tree that spells it. -/
theorem reads_decode (m : AgentMsg) :
    Reads decode (RecordSpelling optional (fun _ => Json.Spelling) m.toJson.fieldsOrEmpty) m := by
  intro place tree spelt shallow
  have known : ∀ key ∈ ["agent_id", "surface_id", "is_main_surface", "error_code"],
      Table.get? m.toJson.fieldsOrEmpty key = none → key ∈ optional := by
    simp [toJson, optional]
  obtain ⟨_, inner, read, founds⟩ := spelt.record? m.nodup_keys known shallow
  obtain _ | ⟨agent, _ | ⟨surface, _ | ⟨isMain, _ | ⟨fault, _ | _⟩⟩⟩⟩ := founds
  have agent := need_of_found agent (reads_word32 m.agent) (by simp [toJson, idJson])
  have surface : may .word64 inner _ = some m.surface :=
    may_of_found surface reads_word64 (by simp) (by simp [toJson])
  have isMain : mayElse false .truth inner _ = _ :=
    mayElse_of_found isMain (reads_truth m.isMainSurface) (by simp [toJson])
  have fault : may (.named Fault.ofName?) inner _ = some m.fault :=
    may_of_found fault (fun f => reads_named f.ofName?_name) (by simp) (by simp [toJson])
  simp only [decode, read, Option.bind_eq_bind, Option.bind_some, agent, surface, isMain, fault]

end AgentMsg

namespace ChannelMsg

/-- The optional fields of a channel message. -/
def optional : List String := ["error_code"]

theorem nodup_keys (m : ChannelMsg) : (m.toJson.fieldsOrEmpty.map (·.1)).Nodup := by
  obtain ⟨agent, channel, prosumer, fault⟩ := m
  cases fault <;> simp [toJson, optionalField]

/-- A channel message is read from every tree that spells it. -/
theorem reads_decode (m : ChannelMsg) :
    Reads decode (RecordSpelling optional (fun _ => Json.Spelling) m.toJson.fieldsOrEmpty) m := by
  intro place tree spelt shallow
  have known : ∀ key ∈ ["agent_id", "channel_id", "prosumer_id", "error_code"],
      Table.get? m.toJson.fieldsOrEmpty key = none → key ∈ optional := by
    simp [toJson, optional]
  obtain ⟨_, inner, read, founds⟩ := spelt.record? m.nodup_keys known shallow
  obtain _ | ⟨agent, _ | ⟨channel, _ | ⟨prosumer, _ | ⟨fault, _ | _⟩⟩⟩⟩ := founds
  have agent := need_of_found agent (reads_word32 m.agent) (by simp [toJson, idJson])
  have channel := need_of_found channel (reads_word32 m.channel) (by simp [toJson, idJson])
  have prosumer := need_of_found prosumer (reads_word32 m.prosumer) (by simp [toJson, idJson])
  have fault : may (.named Fault.ofName?) inner _ = some m.fault :=
    may_of_found fault (fun f => reads_named f.ofName?_name) (by simp) (by simp [toJson])
  simp only [decode, read, Option.bind_eq_bind, Option.bind_some, agent, channel, prosumer, fault]

end ChannelMsg

namespace InteractionMsg

/-- The optional fields of an interaction message. -/
def optional : List String := ["error_code", "step", "detail"]

theorem nodup_keys (m : InteractionMsg) : (m.toJson.fieldsOrEmpty.map (·.1)).Nodup := by
  obtain ⟨context, agent, role, fault, step, detail⟩ := m
  cases fault <;> cases step <;> cases detail <;> simp [toJson, optionalField]

/-- An interaction message is read from every tree that spells it. -/
theorem reads_decode (m : InteractionMsg) :
    Reads decode (RecordSpelling optional (fun _ => Json.Spelling) m.toJson.fieldsOrEmpty) m := by
  intro place tree spelt shallow
  have known : ∀ key ∈ ["context_id", "agent_id", "agent_type", "error_code", "step", "detail"],
      Table.get? m.toJson.fieldsOrEmpty key = none → key ∈ optional := by
    simp [toJson, optional]
  obtain ⟨_, inner, read, founds⟩ := spelt.record? m.nodup_keys known shallow
  obtain _ | ⟨context, _ | ⟨agent, _ | ⟨role, _ | ⟨fault, _ | ⟨step, _ | ⟨detail, _ | _⟩⟩⟩⟩⟩⟩ :=
    founds
  have context := need_of_found context (reads_word32 m.context) (by simp [toJson, idJson])
  have agent := need_of_found agent (reads_word32 m.agent) (by simp [toJson, idJson])
  have role := need_of_found role (reads_named m.role.ofName?_name) (by simp [toJson])
  have fault : may (.named Fault.ofName?) inner _ = some m.fault :=
    may_of_found fault (fun f => reads_named f.ofName?_name) (by simp) (by simp [toJson])
  have step : may (.named RunStep.ofName?) inner _ = some m.step :=
    may_of_found step (fun s => reads_named s.ofName?_name) (by simp) (by simp [toJson])
  have detail : may .text inner _ = some m.detail :=
    may_of_found detail reads_text (by simp) (by simp [toJson])
  simp only [decode, read, Option.bind_eq_bind, Option.bind_some, context, agent, role, fault, step,
    detail]

end InteractionMsg

namespace StatusMsg

/-- The optional fields of a status message. -/
def optional : List String := ["error_code", "step", "detail"]

theorem nodup_keys (m : StatusMsg) : (m.toJson.fieldsOrEmpty.map (·.1)).Nodup := by
  obtain ⟨agent, role, target, kind, fault, step, detail⟩ := m
  cases fault <;> cases step <;> cases detail <;> simp [toJson, optionalField]

/-- A status message is read from every tree that spells it. -/
theorem reads_decode (m : StatusMsg) :
    Reads decode (RecordSpelling optional (fun _ => Json.Spelling) m.toJson.fieldsOrEmpty) m := by
  intro place tree spelt shallow
  have known : ∀ key ∈
      ["agent_id", "agent_type", "to_module", "event_type", "error_code", "step", "detail"],
      Table.get? m.toJson.fieldsOrEmpty key = none → key ∈ optional := by
    simp [toJson, optional]
  obtain ⟨_, inner, read, founds⟩ := spelt.record? m.nodup_keys known shallow
  obtain _ | ⟨agent, _ | ⟨role, _ | ⟨target, _ | ⟨kind, _ | ⟨fault, _ | ⟨step, _ | ⟨detail,
    _ | _⟩⟩⟩⟩⟩⟩⟩ := founds
  have agent := need_of_found agent (reads_word32 m.agent) (by simp [toJson, idJson])
  have role := need_of_found role (reads_named m.role.ofName?_name) (by simp [toJson])
  have target := need_of_found target (reads_named m.target.ofName?_name) (by simp [toJson])
  have kind := need_of_found kind (reads_named m.kind.ofName?_name) (by simp [toJson])
  have fault : may (.named Fault.ofName?) inner _ = some m.fault :=
    may_of_found fault (fun f => reads_named f.ofName?_name) (by simp) (by simp [toJson])
  have step : may (.named RunStep.ofName?) inner _ = some m.step :=
    may_of_found step (fun s => reads_named s.ofName?_name) (by simp) (by simp [toJson])
  have detail : may .text inner _ = some m.detail :=
    may_of_found detail reads_text (by simp) (by simp [toJson])
  simp only [decode, read, Option.bind_eq_bind, Option.bind_some, agent, role, target, kind, fault,
    step, detail]

end StatusMsg

/-- A pushed configuration is read from every tree that spells it. -/
theorem reads_decodePush (data : Json.Value) :
    Reads decodePush (RecordSpelling [] (fun _ => Json.Spelling) [("data", data.json)]) data := by
  intro place tree spelt shallow
  have known : ∀ key ∈ ["data"],
      Table.get? [("data", data.json)] key = none → key ∈ ([] : List String) := by
    simp
  obtain ⟨_, inner, read, founds⟩ := spelt.record? (by simp) known shallow
  obtain _ | ⟨found, _ | _⟩ := founds
  have found := need_of_found found (reads_free data) (by simp)
  simp only [decodePush, read, Option.bind_eq_bind, Option.bind_some, found]

/-! ## Payloads -/

namespace Payload

/-- The optional fields of the message in a payload. -/
def optional : Payload → List String
  | agent _ => AgentMsg.optional
  | channel _ => ChannelMsg.optional
  | interaction _ => InteractionMsg.optional
  | status _ => StatusMsg.optional
  | context _ | configure _ | empty => []

/-- The trees that spell a field of a payload. The message is a record in its turn. -/
def FieldSpelling (p : Payload) (key : String) (json : Json) : JsonTree → Prop :=
  if key = "msg" then RecordSpelling p.optional (fun _ => Json.Spelling) json.fieldsOrEmpty
  else json.Spelling

/-- The trees that spell a payload: a record of its kind and its message. The empty payload has no
message, and may say so. -/
def Spelling (p : Payload) : JsonTree → Prop :=
  RecordSpelling (if p.message?.isNone then ["msg"] else []) p.FieldSpelling p.toJson.fieldsOrEmpty

/-- What may be found under the key of the message. -/
abbrev FoundMessage (p : Payload) : Option JsonTree → Prop :=
  Found (fun json => RecordSpelling p.optional (fun _ => Json.Spelling) json.fieldsOrEmpty)
    p.message?

/-- The message of a payload is read once its kind is known. -/
theorem reads_message {p : Payload} {tree : JsonTree} (found : p.FoundMessage (some tree))
    {place : JsonTree.Place} (shallow : tree.depth ≤ place.depth) :
    decodeMessage p.kind place tree = some p := by
  unfold FoundMessage at found
  cases p with
  | empty =>
    cases found
    rfl
  | context m =>
    cases found with
    | said spelt => exact congrArg (·.map context) (m.reads_decode place tree spelt shallow)
  | agent m =>
    cases found with
    | said spelt => exact congrArg (·.map agent) (m.reads_decode place tree spelt shallow)
  | channel m =>
    cases found with
    | said spelt => exact congrArg (·.map channel) (m.reads_decode place tree spelt shallow)
  | interaction m =>
    cases found with
    | said spelt => exact congrArg (·.map interaction) (m.reads_decode place tree spelt shallow)
  | status m =>
    cases found with
    | said spelt => exact congrArg (·.map status) (m.reads_decode place tree spelt shallow)
  | configure data =>
    cases found with
    | said spelt =>
      exact congrArg (·.map configure) (reads_decodePush data place tree spelt shallow)

/-- The fields of a message are strings, numbers, truth values and what is pushed. -/
theorem forall_mem_message {P : Json → Prop} (str : ∀ s, P (.str s)) (id : ∀ i, P (idJson i))
    (word : ∀ n : UInt64, P (.int n.toNat)) (truth : ∀ b, P (.bool b)) {p : Payload}
    (pushed : ∀ data, p = configure data → P data.json) {json : Json}
    (message : p.message? = some json) : ∀ f ∈ json.fieldsOrEmpty, P f.2 := by
  have fault : ∀ f : Fault, P (.str f.name) := fun f => str f.name
  have step : ∀ s : RunStep, P (.str s.name) := fun s => str s.name
  cases p with
  | empty => cases message
  | context m =>
    cases message
    simp [ContextMsg.toJson, str, id]
  | agent m =>
    cases message
    simp only [AgentMsg.toJson, Json.fieldsOrEmpty_obj, List.forall_mem_append,
      List.forall_mem_singleton]
    exact ⟨⟨⟨id _, forall_mem_optionalField word⟩, truth _⟩, forall_mem_optionalField fault⟩
  | channel m =>
    cases message
    simp only [ChannelMsg.toJson, Json.fieldsOrEmpty_obj, List.forall_mem_append]
    exact ⟨by simp [id], forall_mem_optionalField fault⟩
  | interaction m =>
    cases message
    simp only [InteractionMsg.toJson, Json.fieldsOrEmpty_obj, List.forall_mem_append]
    exact ⟨⟨⟨by simp [id, str], forall_mem_optionalField fault⟩, forall_mem_optionalField step⟩,
      forall_mem_optionalField str⟩
  | status m =>
    cases message
    simp only [StatusMsg.toJson, Json.fieldsOrEmpty_obj, List.forall_mem_append]
    exact ⟨⟨⟨by simp [id, str], forall_mem_optionalField fault⟩, forall_mem_optionalField step⟩,
      forall_mem_optionalField str⟩
  | configure data =>
    cases message
    simpa using pushed data rfl

theorem canonical_message {p : Payload} {json : Json} (message : p.message? = some json) :
    ∀ f ∈ json.fieldsOrEmpty, f.2.Canonical :=
  forall_mem_message .str canonical_idJson canonical_word64 .bool (fun data _ => data.canonical)
    message

theorem legible_message {p : Payload} {tree : JsonTree} (found : p.FoundMessage (some tree)) :
    tree.Legible := by
  unfold FoundMessage at found
  generalize value : p.message? = message at found
  cases found with
  | null => exact .null
  | said spelt =>
    exact spelt.legible fun f mem tree spelt => spelt.legible (canonical_message value f mem)

theorem nodup_keys (p : Payload) : (p.toJson.fieldsOrEmpty.map (·.1)).Nodup := by
  cases p <;> simp [toJson, message?, optionalField]

theorem get?_kind (p : Payload) :
    Table.get? p.toJson.fieldsOrEmpty "kind" = some (.str p.kind.name) := by
  simp [toJson]

theorem get?_msg (p : Payload) : Table.get? p.toJson.fieldsOrEmpty "msg" = p.message? := by
  simp [toJson]

/-- What stands in a payload: its kind, and its message before or after that. -/
theorem fields_of_spelling {p : Payload} {fields : List (Option String × JsonTree)}
    (spelt : p.Spelling (.object fields)) :
    ∃ message, p.FoundMessage message ∧ (∀ tree ∈ message, (some "msg", tree) ∈ fields)
      ∧ (fields.filter fun f => f.1 == some "kind" || f.1 == some "msg").Perm
        ((some "kind", .string (some p.kind.name))
          :: (message.map fun tree => (some "msg", tree)).toList) := by
  have known : Table.get? p.toJson.fieldsOrEmpty "kind" = none →
      "kind" ∈ if p.message?.isNone then ["msg"] else [] := by
    simp [get?_kind]
  obtain ⟨kind, onlyKind, foundKind⟩ := spelt.fieldOnce? p.nodup_keys known
  have known : Table.get? p.toJson.fieldsOrEmpty "msg" = none →
      "msg" ∈ if p.message?.isNone then ["msg"] else [] := by
    rw [get?_msg]
    intro none
    simp [none]
  obtain ⟨message, onlyMessage, foundMessage⟩ := spelt.fieldOnce? p.nodup_keys known
  rw [get?_kind] at foundKind
  rw [get?_msg] at foundMessage
  have both := RecordSpelling.perm_filter_either fields (a := "kind") (b := "msg") (by decide)
  rw [RecordSpelling.filter_of_fieldOnce? onlyKind,
    RecordSpelling.filter_of_fieldOnce? onlyMessage] at both
  refine ⟨message, foundMessage, ?_, ?_⟩
  · rintro tree rfl
    exact RecordSpelling.mem_of_fieldOnce? onlyMessage
  · cases foundKind with
    | said spelt =>
      cases spelt
      exact both

/-- A payload is read from every tree that spells it, whether its kind or its message stands
first. -/
theorem reads_decode (p : Payload) : Reads decode p.Spelling p := by
  intro place tree spelt shallow
  obtain ⟨fields, rfl⟩ : ∃ fields, tree = .object fields := by cases spelt; exact ⟨_, rfl⟩
  obtain ⟨depth, isSetAside⟩ := place
  have shallow : JsonTree.fieldDepths fields + 1 ≤ depth := shallow
  obtain ⟨depth, rfl⟩ : ∃ inner, depth = inner + 1 := ⟨depth - 1, by omega⟩
  have named : fields.all (·.1.isSome) = true := List.all_eq_true.2 spelt.isSome_of_mem
  obtain ⟨message, found, here, stand⟩ := fields_of_spelling spelt
  have kind : ∀ place, decodeKind place (.string (some p.kind.name)) = some p.kind := fun _ =>
    p.kind.ofName?_name
  simp only [decode, named, if_true]
  cases message with
  | none =>
    -- only the empty payload has no message
    have none : p = empty := by
      unfold FoundMessage at found
      cases p with
      | empty => rfl
      | _ => cases found
    subst none
    rw [List.perm_singleton.1 stand]
    rfl
  | some tree =>
    have nests : tree.depth ≤ depth := by
      have within := JsonTree.depth_le_fieldDepths (here tree rfl)
      exact Nat.le_trans within (by omega)
    -- a message that stands before its kind is set aside first, and nobody knows its type then
    rcases List.perm_pair.1 stand with order | order
    · rw [order]
      simp only [kind, Option.bind_eq_bind, Option.bind_some]
      exact reads_message found nests
    · have readable : tree.isReadable ⟨depth, isSetAside⟩ = true :=
        (legible_message found).isReadable nests
      rw [order]
      simp only [readable, if_true, kind, Option.bind_eq_bind, Option.bind_some]
      exact reads_message found nests

theorem forall_mem_fields {p : Payload} {P : String → Json → Prop}
    (kind : P "kind" (.str p.kind.name))
    (msg : ∀ json, p.message? = some json → P "msg" json) :
    ∀ f ∈ p.toJson.fieldsOrEmpty, P f.1 f.2 := by
  intro f mem
  rcases List.mem_cons.1 mem with rfl | mem
  · exact kind
  · cases message : p.message? with
    | none =>
      rw [message] at mem
      cases mem
    | some json =>
      rw [message] at mem
      obtain rfl := List.mem_singleton.1 mem
      exact msg json message

/-- What spells a payload stands for a value. -/
theorem legible {p : Payload} {tree : JsonTree} (spelt : p.Spelling tree) : tree.Legible := by
  refine RecordSpelling.legible spelt (forall_mem_fields
    (P := fun key json => ∀ tree, p.FieldSpelling key json tree → tree.Legible) ?_ ?_)
  · exact fun tree spelt => Json.Spelling.legible spelt (.str _)
  · intro json message tree spelt
    exact RecordSpelling.legible spelt fun f mem tree spelt =>
      spelt.legible (canonical_message message f mem)

/-- A payload's own tree spells it, if nothing that is pushed is a double. -/
theorem plain {p : Payload} (floatless : ∀ data, p = configure data → data.json.Floatless) :
    p.Spelling p.toJson.toTree := by
  refine RecordSpelling.plain (forall_mem_fields
    (P := fun key json => p.FieldSpelling key json json.toTree) ?_ fun json message => ?_)
  · exact Json.Spelling.str _
  · have fields :=
      forall_mem_message .str (fun i => .int _) (fun n => .int _) .bool floatless message
    obtain ⟨record, rfl⟩ : ∃ record, json = .obj record := by
      cases p <;> cases message <;> exact ⟨_, rfl⟩
    exact RecordSpelling.plain fun f mem => (fields f mem).spelling

end Payload

/-! ## Events -/

namespace Event

/-- The trees that spell a field of an event. The payload is a record in its turn. -/
def FieldSpelling (e : Event) (key : String) (json : Json) : JsonTree → Prop :=
  if key = "payload" then e.payload.Spelling else json.Spelling

/-- The trees that spell an event. -/
def Spelling (e : Event) : JsonTree → Prop :=
  RecordSpelling [] e.FieldSpelling e.toJson.fieldsOrEmpty

theorem nodup_keys (e : Event) : (e.toJson.fieldsOrEmpty.map (·.1)).Nodup := by
  simp [toJson]

/-- An event is read from every tree that spells it. -/
theorem reads_decode (e : Event) : Reads decode e.Spelling e := by
  intro place tree spelt shallow
  have known : ∀ key ∈ ["event_type", "from_module", "to_module", "src_id", "dst_id", "payload"],
      Table.get? e.toJson.fieldsOrEmpty key = none → key ∈ ([] : List String) := by
    simp [toJson]
  obtain ⟨_, inner, read, founds⟩ := RecordSpelling.record? spelt e.nodup_keys known shallow
  obtain _ | ⟨kind, _ | ⟨sender, _ | ⟨target, _ | ⟨src, _ | ⟨dst, _ | ⟨payload, _ | _⟩⟩⟩⟩⟩⟩ :=
    founds
  have kind := need_of_found kind (reads_named e.kind.ofName?_name) (by simp [toJson])
  have sender := need_of_found sender (reads_named e.sender.ofName?_name) (by simp [toJson])
  have target := need_of_found target (reads_named e.target.ofName?_name) (by simp [toJson])
  have src := need_of_found src (reads_word32 e.src) (by simp [toJson, idJson])
  have dst := need_of_found dst (reads_word32 e.dst) (by simp [toJson, idJson])
  have payload := need_of_found payload e.payload.reads_decode (by simp [toJson]; rfl)
  simp only [decode, read, Option.bind_eq_bind, Option.bind_some, kind, sender, target, src, dst,
    payload]

/-- What spells an event stands for a value. -/
theorem legible {e : Event} {tree : JsonTree} (spelt : e.Spelling tree) : tree.Legible := by
  have str : ∀ (s : String) tree, (Json.str s).Spelling tree → tree.Legible := fun s tree spelt =>
    spelt.legible (.str s)
  have id : ∀ (i : Id) tree, (idJson i).Spelling tree → tree.Legible := fun i tree spelt =>
    spelt.legible (canonical_idJson i)
  refine RecordSpelling.legible spelt ?_
  simp only [toJson, Json.fieldsOrEmpty_obj, List.forall_mem_cons]
  exact ⟨str _, str _, str _, id _, id _, fun tree => Payload.legible, List.forall_mem_nil _⟩

/-- An event's own tree spells it, if nothing that is pushed is a double. -/
theorem plain {e : Event}
    (floatless : ∀ data, e.payload = .configure data → data.json.Floatless) :
    e.Spelling e.toJson.toTree := by
  refine RecordSpelling.plain ?_
  simp only [toJson, Json.fieldsOrEmpty_obj, List.forall_mem_cons]
  exact ⟨.str _, .str _, .str _, .int _, .int _, Payload.plain floatless, List.forall_mem_nil _⟩

/-- **Every spelling of an event is read** as that event. -/
theorem spellings_are_read (e : Event)
    (floatless : ∀ data, e.payload = .configure data → data.json.Floatless) :
    (e.toJson.toTree.depth ≤ JsonTree.maxDepth → Event.parse? e.toJson.render = some e)
      ∧ ∀ tree, e.Spelling tree → tree.depth ≤ JsonTree.maxDepth →
        Event.parse? tree.render = some e := by
  have read : ∀ tree, e.Spelling tree → tree.depth ≤ JsonTree.maxDepth →
      Event.parse? tree.render = some e := by
    intro tree spelt shallow
    unfold parse?
    rw [JsonTree.parse?_render (legible spelt).isProper]
    exact e.reads_decode .top tree spelt shallow
  exact ⟨read _ (plain floatless), read⟩

/-! ### Backwards -/

/-- An event that pushes settings. -/
def pushing : Event where
  kind := .configure
  sender := .configure
  target := .hub
  payload := .configure
    { json := .obj [("a", .arr [.int (-1), .str "\"\u00e9\n"]), ("b", .obj [])]
      canonical := by
        refine .obj (List.pairwise_pair.2 (by decide)) ?_
        simp only [List.forall_mem_cons]
        refine ⟨.arr ?_, .empty, List.forall_mem_nil _⟩
        simp only [List.forall_mem_cons]
        exact ⟨.int (by decide) (by decide), .str _, List.forall_mem_nil _⟩ }

/-- The message of that event backwards, with something in it that nobody knows. -/
def messageBackwards : JsonTree :=
  .object [(some "since", .array [.null]),
    (some "data", .object [(some "b", .object []),
      (some "a", .array [.number (.ofInt (-1)), .string (some "\"\u00e9\n")])])]

/-- The payload backwards: the message stands before the kind. -/
def payloadBackwards : JsonTree :=
  .object (List.reverse [(some "kind", .string (some "configure")), (some "msg", messageBackwards)])

/-- That event backwards. -/
def pushingBackwards : JsonTree :=
  .object (List.reverse [(some "event_type", .string (some "EVENT_CONFIGURE_CONTEXT")),
    (some "from_module", .string (some "CONFIGURE")),
    (some "to_module", .string (some "CONTEXT_MANAGER")),
    (some "src_id", .number (.ofInt 0xFFFFFFFF)), (some "dst_id", .number (.ofInt 0xFFFFFFFF)),
    (some "payload", payloadBackwards)])

theorem spelling_pushingBackwards : pushing.Spelling pushingBackwards := by
  have plain : Json.Floatless (.arr [.int (-1), .str "\"\u00e9\n"]) := by
    refine .arr ?_
    simp only [List.forall_mem_cons]
    exact ⟨.int _, .str _, List.forall_mem_nil _⟩
  have settings : Json.Spelling _ (.object _) :=
    .obj (.swap ("a", _, _) ("b", .obj [], .object []) []) (by
      simp only [List.forall_mem_cons]
      exact ⟨plain.spelling, (Json.Floatless.obj (List.forall_mem_nil _)).spelling,
        List.forall_mem_nil _⟩)
  have message : RecordSpelling [] (fun _ => Json.Spelling) [("data", _)] messageBackwards :=
    .intro (.cons ⟨rfl, settings⟩ .nil) (List.forall_mem_nil _) .nil
      (List.forall_mem_singleton.2 ⟨"since", by simp, by simp, rfl⟩)
      (List.forall_mem_singleton.2 (.array (List.forall_mem_singleton.2 .null))) (.swap ..)
  have payload : pushing.payload.Spelling payloadBackwards := by
    refine .of_perm ?_ (List.reverse_perm _)
    exact .cons ⟨rfl, Json.Spelling.str _⟩ (.cons ⟨rfl, message⟩ .nil)
  refine .of_perm ?_ (List.reverse_perm _)
  exact .cons ⟨rfl, Json.Spelling.str _⟩ (.cons ⟨rfl, Json.Spelling.str _⟩
    (.cons ⟨rfl, Json.Spelling.str _⟩ (.cons ⟨rfl, Json.Spelling.int _⟩
      (.cons ⟨rfl, Json.Spelling.int _⟩ (.cons ⟨rfl, payload⟩ .nil)))))

/-- So it is read when every object has its fields backwards, with one that nobody asked for. -/
theorem spellings_are_read_backwards :
    Event.parse? pushing.toJson.render = some pushing
      ∧ Event.parse? pushingBackwards.render = some pushing := by
  have floatless : ∀ data, pushing.payload = .configure data → data.json.Floatless := by
    rintro _ ⟨⟩
    refine .obj ?_
    simp only [List.forall_mem_cons]
    refine ⟨.arr ?_, .obj (List.forall_mem_nil _), List.forall_mem_nil _⟩
    simp only [List.forall_mem_cons]
    exact ⟨.int _, .str _, List.forall_mem_nil _⟩
  have read := pushing.spellings_are_read floatless
  exact ⟨read.1 (by decide), read.2 _ spelling_pushingBackwards (by decide)⟩

end Event

end CastHub
