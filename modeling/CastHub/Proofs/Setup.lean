import CastHub.Proofs.Acts
import Mathlib.Data.List.DropRight
import Mathlib.Data.List.Infix
/-!
# What configuration makes of a hub

A hub keeps the configuration, the limits and the network log's switch apart (`Setup`). It is given
a whole configuration (`Act.init?`) or a part that is laid over the one it has (`Act.push?`), and
nothing else that happens touches any of the three (`Hub.setup_perform`). So they stay together:
the configuration is the last whole one with all later parts laid over it, in order
(`effective`), the limits are what that one asks for, and the switch is as the last of the
configurations that have been in force says, among those that mention it
(`Hub.limits_follow_the_configuration`).
-/

namespace CastHub

/-- What configuration makes of a hub. -/
structure Setup where
  config : Config
  limits : Limits
  logOn : Bool

/-- The setup under another configuration. The switch stays as it is if the configuration does not
mention it. -/
def Setup.turnTo (setup : Setup) (config : Config) : Setup :=
  { config, limits := .ofConfig config, logOn := config.networkLog?.getD setup.logOn }

/-- What configuration has made of a hub. -/
def Hub.setup (hub : Hub) : Setup := ⟨hub.config, hub.limits, hub.logOn⟩

/-! ## Acts that configure -/

/-- The part of a configuration that a payload carries. Only an object is one. -/
def Payload.push? : Payload → Option Config
  | .configure data => (Config.ofValue data).toOption
  | _ => none

namespace Act

/-- The whole configuration that a hub is given. -/
def init? : Act → Option Config
  | .init config => some config
  | _ => none

/-- The part of a configuration that is pushed. -/
def push? : Act → Option Config
  | .event e => if e.kind = .configure then e.payload.push? else none
  | _ => none

/-- Whether an act configures a hub. -/
def configures (act : Act) : Bool := act.init?.isSome || act.push?.isSome

/-- The configuration that an act puts in the place of another one, if it configures. -/
def amend? (act : Act) (config : Config) : Option Config :=
  act.init?.or (act.push?.map config.overlay)

theorem isSome_amend? (act : Act) (config : Config) :
    (act.amend? config).isSome = act.configures := by
  unfold amend? configures
  rw [Option.isSome_or, Option.isSome_map]

/-- An event configures only if it is of that kind and carries an object. -/
theorem configures_event {e : Event}
    (other : e.kind = .configure → ∀ fields h, e.payload ≠ .configure ⟨.obj fields, h⟩) :
    (Act.event e).configures = false := by
  show (if e.kind = .configure then e.payload.push? else none).isSome = false
  by_cases kind : e.kind = .configure
  · have notObject := other kind
    rw [if_pos kind]
    cases payload : e.payload with
    | configure data =>
      obtain ⟨json, canonical⟩ := data
      cases json with
      | obj fields => exact absurd payload (notObject fields canonical)
      | _ => rfl
    | _ => rfl
  · rw [if_neg kind]
    rfl

end Act

/-- The configuration after several acts: the last whole one, empty if there was none, with every
part that was pushed later laid over it, in order. -/
def effective (acts : List Act) : Config :=
  ((acts.rtakeWhile (·.init?.isNone)).filterMap Act.push?).foldl Config.overlay
    ((acts.filterMap Act.init?).getLastD .empty)

/-- The configurations that several acts put in force, one after another. -/
def documents (acts : List Act) : List Config :=
  (acts.inits.filter fun past => past.getLast?.any (·.configures)).map effective

/-- One act more amends the configuration, or leaves it. -/
theorem effective_concat (acts : List Act) (act : Act) :
    effective (acts ++ [act]) = (act.amend? (effective acts)).getD (effective acts) := by
  unfold Act.amend?
  cases isInit : act.init? with
  | some config =>
    -- A whole configuration replaces everything before it.
    have replaces : effective (acts ++ [act]) = config := by
      simp [effective, isInit]
    exact replaces
  | none =>
    have since : effective (acts ++ [act])
        = act.push?.toList.foldl Config.overlay (effective acts) := by
      simp only [effective, List.rtakeWhile_concat, isInit, Option.isNone_none, if_true,
        List.filterMap_append, List.foldl_append, List.append_nil, List.filterMap_nil,
        List.filterMap_cons]
      cases act.push? <;> rfl
    rw [since]
    cases act.push? <;> rfl

theorem documents_concat (acts : List Act) (act : Act) :
    documents (acts ++ [act]) = documents acts ++ (act.amend? (effective acts)).toList := by
  unfold documents
  rw [List.inits_append, List.filter_append, List.map_append]
  congr 1
  have last : [act].inits.tail.map (acts ++ ·) = [acts ++ [act]] := rfl
  rw [last]
  have configures := act.isSome_amend? (effective acts)
  have amended := effective_concat acts act
  cases amends : act.amend? (effective acts) with
  | some config =>
    rw [amends] at configures amended
    simp [← configures, amended]
  | none =>
    rw [amends] at configures
    simp [← configures]

namespace Hub

/-! ## What else happens -/

theorem setup_keep (hub : Hub) (c : Context) : (hub.keep c).setup = hub.setup := by
  unfold keep
  split <;> rfl

theorem setup_closeContext (hub : Hub) (x : Id) : (hub.closeContext x).1.setup = hub.setup := by
  unfold closeContext
  split <;> rfl

theorem setup_closeIfEmpty (hub : Hub) (x : Id) : (hub.closeIfEmpty x).1.setup = hub.setup := by
  rcases hub.closeIfEmpty_cases x with same | ⟨_, _, _, closes⟩
  · rw [same]
  · rw [closes, setup_closeContext]

theorem setup_openContext {hub hub' : Hub} {c : Context}
    (opened : hub.openContext = .ok (c, hub')) : hub'.setup = hub.setup := by
  obtain ⟨_, _, _, _, _, rfl⟩ := openContext_eq_ok opened
  rfl

theorem setup_contextFor {hub hub' : Hub} {dst : Id} {c : Context} {fresh : Bool}
    (found : hub.contextFor dst = .ok (c, fresh, hub')) : hub'.setup = hub.setup := by
  rcases contextFor_eq_ok found with ⟨_, opened⟩ | ⟨_, _, rfl⟩
  · exact setup_openContext opened
  · rfl

theorem setup_conclude (hub : Hub) (x : Id) (origin : Origin) (result : Except Fault Id) :
    (hub.conclude x origin result).hub.setup = hub.setup := by
  obtain ⟨outcome, _, same | ⟨_, closes⟩⟩ := hub.conclude_cases x origin result
  · rw [same]
  · rw [closes]
    exact setup_closeContext hub x

theorem setup_begin (hub : Hub) (c : Context) (msg : ContextMsg) (origin : Origin) :
    (hub.begin c msg origin).hub.setup = hub.setup := by
  cases hub.begin_cases c msg origin with
  | fails ids fault comes =>
    rw [comes]
    exact setup_conclude { hub with ids } ..
  | waits blank id ids session sessions new minted known comes =>
    rw [comes]
    rfl

theorem setup_deliver (hub : Hub) (c : Context) (e : Event) :
    (hub.deliver c e).hub.setup = hub.setup := by
  cases hub.deliver_cases c e with
  | refused fault refuses comes => rw [comes]
  | unclear c' received asks comes =>
    rw [comes]
    exact setup_keep ..
  | begins c' msg received asks asked comes =>
    rw [comes, setup_begin, setup_keep]
  | carries c' received other comes =>
    rw [comes]
    exact setup_keep ..

theorem setup_createAgent (hub : Hub) (e : Event) : (hub.createAgent e).hub.setup = hub.setup := by
  cases hub.createAgent_cases e with
  | refused fault comes => rw [comes]
  | shut c fresh hub' fault found comes =>
    rw [comes]
    exact setup_contextFor found
  | begins msg c c' fresh hub' asked room found received comes =>
    rw [comes, setup_begin, setup_keep, setup_contextFor found]

theorem setup_channelDestroyed (hub : Hub) (e : Event) :
    (hub.channelDestroyed e).hub.setup = hub.setup := by
  cases hub.channelDestroyed_cases e with
  | dropped missing comes => rw [comes]
  | refused c fault held refuses comes =>
    rw [comes]
    exact setup_closeIfEmpty ..
  | ends c c' held received comes =>
    rw [comes]
    exact (setup_closeIfEmpty ..).trans (setup_keep ..)

theorem setup_enlist (hub : Hub) (x : Id) (a : Agent) (origin : Origin) :
    (hub.enlist x a origin).hub.setup = hub.setup := by
  cases hub.enlist_cases x a origin with
  | fails fault comes => rw [comes, setup_conclude]
  | joins c c' there published comes => rw [comes, setup_conclude, setup_keep]

theorem setup_built {hub : Hub} {t : HubTurn} (built : hub.built = some t) :
    t.hub.setup = hub.setup := by
  cases built_cases built with
  | joins x a session origin rest latest source comes =>
    rw [comes]
    exact setup_enlist { hub with creations := rest } ..
  | waits x a session origin rest latest isSink comes =>
    rw [comes]
    rfl

theorem setup_answered {hub : Hub} {answer : Except Fault Event} {t : HubTurn}
    (answered : hub.answered answer = some t) : t.hub.setup = hub.setup := by
  cases answered_cases answered with
  | fails x a origin rest fault latest comes =>
    rw [comes]
    exact setup_conclude { hub with creations := rest } ..
  | joins x a origin rest channel latest assigned comes =>
    rw [comes]
    exact setup_enlist { hub with creations := rest } ..

theorem setup_overhear (hub : Hub) (x id : Id) (news : SessionNews) :
    (hub.overhear x id news).hub.setup = hub.setup := by
  unfold overhear
  split
  · rfl
  · split
    · exact setup_keep ..
    · split
      · exact setup_keep ..
      · rfl

/-! ## One act -/

theorem setup_configure (hub : Hub) (payload : Payload) :
    (hub.configure payload).setup
      = (payload.push?.map (hub.setup.turnTo ∘ hub.config.overlay)).getD hub.setup := by
  cases payload with
  | configure data =>
    unfold configure Payload.push?
    dsimp only
    cases Config.ofValue data <;> rfl
  | _ => rfl

theorem setup_handle_of_ne (hub : Hub) {e : Event} (other : e.kind ≠ .configure) :
    (hub.handle e).hub.setup = hub.setup := by
  cases hub.handle_cases e with
  | configures kind comes => exact absurd kind other
  | full fault kind comes => rw [comes]
  | opens c hub' kind opened comes =>
    rw [comes]
    exact setup_openContext opened
  | creates kind comes => rw [comes, setup_createAgent]
  | ends kind comes => rw [comes, setup_channelDestroyed]
  | dropped notAgent notChannel missing comes => rw [comes]
  | delivers c notAgent notChannel held comes => rw [comes, setup_deliver]

/-- **What one act does to the setup of a hub.** -/
theorem setup_perform (hub : Hub) (act : Act) :
    (hub.perform act).hub.setup
      = ((act.amend? hub.config).map hub.setup.turnTo).getD hub.setup := by
  cases hub.perform_cases act with
  | handles e =>
    by_cases kind : e.kind = .configure
    · have pushes : Act.push? (.event e) = e.payload.push? := if_pos kind
      have amends : Act.amend? (.event e) hub.config = e.payload.push?.map hub.config.overlay := by
        rw [Act.amend?, pushes]
        rfl
      rw [amends, Option.map_map]
      show (hub.handle e).hub.setup = _
      rw [handle_of_configure hub kind]
      exact setup_configure hub e.payload
    · have pushes : Act.push? (.event e) = none := if_neg kind
      have amends : Act.amend? (.event e) hub.config = none := by
        rw [Act.amend?, pushes]
        rfl
      rw [amends]
      exact setup_handle_of_ne hub kind
  | lost x e missing comes => rw [comes]; rfl
  | delivers x e c there comes =>
    rw [comes]
    exact setup_deliver ..
  | unbuilt comes => rw [comes]; rfl
  | builds t made comes =>
    rw [comes]
    exact setup_built made
  | unanswered answer comes => rw [comes]; rfl
  | answers answer t made comes =>
    rw [comes]
    exact setup_answered made
  | overhears x id news => exact setup_overhear ..
  | registers className cls => rfl
  | starts config => rfl
  | closes x => exact setup_closeContext ..

/-- An act that does not configure leaves the setup as it is. -/
theorem setup_perform_of_not {act : Act} (other : act.configures = false) (hub : Hub) :
    (hub.perform act).hub.setup = hub.setup := by
  have unamended := (act.isSome_amend? hub.config).trans other
  rw [setup_perform, Option.not_isSome_iff_eq_none.1 (Bool.eq_false_iff.1 unamended)]
  rfl

/-! ## Histories -/

/-- What several acts make of the setup of a new hub. -/
theorem setup_after {hub : Hub} (new : hub.setup = ⟨.empty, {}, false⟩) (acts : List Act) :
    (hub.after acts).setup =
      ⟨effective acts, .ofConfig (effective acts),
        ((documents acts).filterMap Config.networkLog?).getLastD false⟩ := by
  induction acts using List.reverseRecOn with
  | nil => exact new
  | append_singleton acts act ih =>
    have config : (hub.after acts).config = effective acts := congrArg Setup.config ih
    have more : hub.after (acts ++ [act]) = ((hub.after acts).perform act).hub :=
      after_append hub acts [act]
    rw [more, setup_perform, config, ih, effective_concat, documents_concat]
    cases act.amend? (effective acts) with
    | none => simp
    | some config =>
      rw [List.filterMap_append]
      cases mentions : config.networkLog? <;> simp [Setup.turnTo, mentions]

/-- **The setup of a hub is what its configuration says.** Whatever happens to a new hub, the
configuration is the last whole one with the later pushes laid over it, the limits are the ones it
asks for, and the switch is as the last configuration in force that mentions it says. An event that
is not of the kind that configures, or carries no object, touches none of them. -/
theorem limits_follow_the_configuration (classes : SessionClasses) (ids : IdSource)
    (syncTimeout : Nat) (acts : List Act) :
    let hub := ({ classes, ids, syncTimeout } : Hub).after acts
    hub.config = effective acts ∧
    hub.limits = .ofConfig (effective acts) ∧
    hub.logOn = ((documents acts).filterMap Config.networkLog?).getLastD false ∧
    ∀ e : Event, (e.kind = .configure → ∀ fields h, e.payload ≠ .configure ⟨.obj fields, h⟩) →
      (hub.handle e).hub.config = hub.config ∧
      (hub.handle e).hub.limits = hub.limits ∧
      (hub.handle e).hub.logOn = hub.logOn := by
  intro hub
  have new : ({ classes, ids, syncTimeout } : Hub).setup = ⟨.empty, {}, false⟩ := rfl
  have setup : hub.setup = _ := setup_after new acts
  refine ⟨congrArg Setup.config setup, congrArg Setup.limits setup, congrArg Setup.logOn setup,
    fun e other => ?_⟩
  have same : (hub.handle e).hub.setup = hub.setup :=
    setup_perform_of_not (Act.configures_event other) hub
  exact ⟨congrArg Setup.config same, congrArg Setup.limits same, congrArg Setup.logOn same⟩

end Hub

end CastHub
