import CastHub.Proofs.Acts
/-!
# Quotas

As long as agents are made only for requests to the hub, and the limits stay as they are, the hub
never holds more agents or contexts than the quotas allow: whoever begins to be made finds room, and
keeps it until it is there or has come to nothing. The room is given back once, whichever way the
making of an agent ends, so it is all there again when nobody is in the making.
-/

namespace CastHub

/-- Whether an agent begins to be made: its session is to be built. -/
def Outcome.isBeginning : Outcome → Bool
  | .building _ => true
  | _ => false

/-- Whether an operation has come to its end, and waits for nobody. -/
def Outcome.isEnd : Outcome → Bool
  | .handled _ _ | .created _ => true
  | .building _ | .asking _ => false

/-- Whether somebody comes that the hub waits for. -/
def Act.isAwaited : Act → Bool
  | .built | .answered _ => true
  | _ => false

/-- Whether the making of an agent begins at a moment. -/
def Moment.begins (m : Moment) : Bool := m.turn.outcome.any (·.isBeginning)

/-- Whether the making of an agent ends at a moment, one way or another. -/
def Moment.ends (m : Moment) : Bool := m.act.isAwaited && m.turn.outcome.any (·.isEnd)

/-- While a sink is in the making a second one is asked for, and a third when the first is there. -/
def Act.crowding : List Act :=
  [request .sink .unassigned .unassigned, request .sink .unassigned .unassigned, built, grant 7,
    request .sink .unassigned .unassigned]

namespace Hub

/-! ## Agents in the making -/

/-- A turn that leaves the agents in the making as they are, but for one that has begun to be. -/
def Counts (hub : Hub) (t : HubTurn) : Prop :=
  t.hub.creations.length = hub.creations.length + t.outcome.isBeginning.toNat

theorem creations_keep (hub : Hub) (c : Context) : (hub.keep c).creations = hub.creations := by
  unfold keep
  split <;> rfl

theorem creations_closeContext (hub : Hub) (x : Id) :
    (hub.closeContext x).1.creations = hub.creations := by
  unfold closeContext
  split <;> rfl

theorem creations_closeIfEmpty (hub : Hub) (x : Id) :
    (hub.closeIfEmpty x).1.creations = hub.creations := by
  rcases hub.closeIfEmpty_cases x with same | ⟨_, _, _, closes⟩
  · rw [same]
  · rw [closes, creations_closeContext]

theorem creations_openContext {hub hub' : Hub} {c : Context}
    (opened : hub.openContext = .ok (c, hub')) : hub'.creations = hub.creations := by
  obtain ⟨_, _, _, _, _, rfl⟩ := openContext_eq_ok opened
  rfl

theorem creations_contextFor {hub hub' : Hub} {dst : Id} {c : Context} {fresh : Bool}
    (found : hub.contextFor dst = .ok (c, fresh, hub')) : hub'.creations = hub.creations := by
  rcases contextFor_eq_ok found with ⟨_, opened⟩ | ⟨_, _, rfl⟩
  · exact creations_openContext opened
  · rfl

theorem creations_configure (hub : Hub) (payload : Payload) :
    (hub.configure payload).creations = hub.creations := by
  unfold configure
  split
  · split <;> rfl
  · rfl

/-- Concluding ends an operation, and nothing is in the making then that was not before. -/
theorem creations_conclude (hub : Hub) (x : Id) (origin : Origin) (result : Except Fault Id) :
    (hub.conclude x origin result).hub.creations = hub.creations ∧
      (hub.conclude x origin result).outcome.isEnd = true := by
  obtain ⟨outcome, ends, same | ⟨_, closes⟩⟩ := hub.conclude_cases x origin result
  · rw [same]
    rcases ends with rfl | ⟨e, rfl⟩ <;> exact ⟨rfl, rfl⟩
  · rw [closes]
    refine ⟨creations_closeContext hub x, ?_⟩
    rcases ends with rfl | ⟨e, rfl⟩ <;> rfl

theorem isBeginning_of_isEnd {outcome : Outcome} (h : outcome.isEnd = true) :
    outcome.isBeginning = false := by
  cases outcome with
  | handled result e => rfl
  | created result => rfl
  | building className => cases h
  | asking request => cases h

theorem counts_of_same {hub : Hub} {t : HubTurn} (same : t.hub.creations = hub.creations)
    (idle : t.outcome.isBeginning = false) : hub.Counts t := by
  unfold Counts
  rw [same, idle]
  rfl

theorem counts_conclude {hub hub' : Hub} (same : hub'.creations = hub.creations) (x : Id)
    (origin : Origin) (result : Except Fault Id) : hub.Counts (hub'.conclude x origin result) := by
  obtain ⟨kept, ended⟩ := creations_conclude hub' x origin result
  exact counts_of_same (kept.trans same) (isBeginning_of_isEnd ended)

theorem counts_begin {hub hub' : Hub} (same : hub'.creations = hub.creations) (c : Context)
    (msg : ContextMsg) (origin : Origin) : hub.Counts (hub'.begin c msg origin) := by
  cases hub'.begin_cases c msg origin with
  | fails ids fault comes used =>
    rw [comes]
    exact @counts_conclude hub { hub' with ids } same c.id origin _
  | waits blank id ids session sessions new minted known comes =>
    rw [comes]
    show hub'.creations.length + 1 = hub.creations.length + 1
    rw [same]

theorem counts_deliver (hub : Hub) (c : Context) (e : Event) : hub.Counts (hub.deliver c e) := by
  cases hub.deliver_cases c e with
  | refused fault refuses comes =>
    rw [comes]
    exact counts_of_same rfl rfl
  | unclear c' received asks comes =>
    rw [comes]
    exact counts_of_same (creations_keep hub c') rfl
  | begins c' msg received asks asked comes =>
    rw [comes]
    exact counts_begin (creations_keep hub c') ..
  | carries c' received other comes =>
    rw [comes]
    exact counts_of_same (creations_keep hub _) rfl

theorem counts_createAgent (hub : Hub) (e : Event) : hub.Counts (hub.createAgent e) := by
  cases hub.createAgent_cases e with
  | refused fault comes =>
    rw [comes]
    exact counts_of_same rfl rfl
  | shut c fresh hub' fault found comes =>
    rw [comes]
    exact counts_of_same (creations_contextFor found) rfl
  | begins msg c c' fresh hub' asked room found received comes =>
    rw [comes]
    exact counts_begin ((creations_keep ..).trans (creations_contextFor found)) ..

theorem counts_channelDestroyed (hub : Hub) (e : Event) : hub.Counts (hub.channelDestroyed e) := by
  cases hub.channelDestroyed_cases e with
  | dropped missing comes =>
    rw [comes]
    exact counts_of_same rfl rfl
  | refused c fault held refuses comes =>
    rw [comes]
    exact counts_of_same (creations_closeIfEmpty ..) rfl
  | ends c c' held received comes =>
    rw [comes]
    exact counts_of_same ((creations_closeIfEmpty ..).trans (creations_keep ..)) rfl

/-- An event begins the making of at most one agent, and ends none. -/
theorem counts_handle (hub : Hub) (e : Event) : hub.Counts (hub.handle e) := by
  cases hub.handle_cases e with
  | configures kind comes =>
    rw [comes]
    exact counts_of_same (creations_configure hub _) rfl
  | full fault kind comes =>
    rw [comes]
    exact counts_of_same rfl rfl
  | opens c hub' kind opened comes =>
    rw [comes]
    exact counts_of_same (creations_openContext opened) rfl
  | creates kind comes =>
    rw [comes]
    exact counts_createAgent hub e
  | ends kind comes =>
    rw [comes]
    exact counts_channelDestroyed hub e
  | dropped notAgent notChannel missing comes =>
    rw [comes]
    exact counts_of_same rfl rfl
  | delivers c notAgent notChannel held comes =>
    rw [comes]
    exact counts_deliver ..

theorem creations_enlist (hub : Hub) (x : Id) (a : Agent) (origin : Origin) :
    (hub.enlist x a origin).hub.creations = hub.creations ∧
      (hub.enlist x a origin).outcome.isEnd = true := by
  cases hub.enlist_cases x a origin with
  | fails fault comes =>
    rw [comes]
    exact creations_conclude ..
  | joins c c' there published comes =>
    obtain ⟨kept, ended⟩ := creations_conclude (hub.keep c') x origin (.ok a.id)
    rw [comes]
    exact ⟨kept.trans (creations_keep hub c'), ended⟩

/-- Whoever was waited for has come: the making of one agent has ended, or somebody else is waited
for. -/
def Settles (hub : Hub) (t : HubTurn) : Prop :=
  t.hub.creations.length + t.outcome.isEnd.toNat = hub.creations.length ∧
    t.outcome.isBeginning = false

theorem settles_of_end {hub : Hub} {creation : Creation} {rest : List Creation} {t : HubTurn}
    (latest : hub.creations = creation :: rest) (same : t.hub.creations = rest)
    (ended : t.outcome.isEnd = true) : hub.Settles t := by
  refine ⟨?_, isBeginning_of_isEnd ended⟩
  rw [latest, same, ended]
  rfl

theorem settles_built {hub : Hub} {t : HubTurn} (built : hub.built = some t) : hub.Settles t := by
  cases built_cases built with
  | joins x a session origin rest latest source comes =>
    obtain ⟨kept, ended⟩ := creations_enlist { hub with creations := rest } x
      { a with session := some session } origin
    rw [comes]
    exact settles_of_end latest kept ended
  | waits x a session origin rest latest isSink comes =>
    -- a sink waits for its channel next
    rw [comes]
    refine ⟨?_, rfl⟩
    rw [latest]
    rfl

theorem settles_answered {hub : Hub} {answer : Except Fault Event} {t : HubTurn}
    (answered : hub.answered answer = some t) : hub.Settles t := by
  cases answered_cases answered with
  | fails x a origin rest fault latest comes =>
    obtain ⟨kept, ended⟩ := creations_conclude { hub with creations := rest } x origin _
    rw [comes]
    exact settles_of_end latest kept ended
  | joins x a origin rest channel latest assigned comes =>
    obtain ⟨kept, ended⟩ := creations_enlist { hub with creations := rest } x
      { a with channel } origin
    rw [comes]
    exact settles_of_end latest kept ended

theorem length_creations_overhear (hub : Hub) (x id : Id) (news : SessionNews) :
    (hub.overhear x id news).hub.creations.length = hub.creations.length ∧
      (hub.overhear x id news).outcome = none := by
  unfold overhear
  split
  · exact ⟨rfl, rfl⟩
  · split
    · exact ⟨congrArg List.length (creations_keep ..), rfl⟩
    · split
      · exact ⟨congrArg List.length (creations_keep ..), rfl⟩
      · exact ⟨List.length_map .., rfl⟩

/-! ## Balance -/

/-- The number of agents in the making goes up when an act begins one, and down when it ends one. -/
def Balanced (hub : Hub) (act : Act) : Prop :=
  (hub.perform act).hub.creations.length + (hub.moment act).ends.toNat
    = hub.creations.length + (hub.moment act).begins.toNat

/-- An act that is out of place. -/
theorem balanced_of_idle {hub : Hub} {act : Act} (comes : hub.perform act = { hub }) :
    hub.Balanced act := by
  unfold Balanced Moment.ends Moment.begins moment
  rw [comes, Option.any_none, Bool.and_false]
  rfl

theorem Counts.balanced {hub : Hub} {act : Act} {t : HubTurn} (h : hub.Counts t)
    (comes : hub.perform act = t.done) (other : act.isAwaited = false) : hub.Balanced act := by
  unfold Balanced Moment.ends Moment.begins moment
  rw [comes, other]
  exact h

theorem Settles.balanced {hub : Hub} {act : Act} {t : HubTurn} (h : hub.Settles t)
    (comes : hub.perform act = t.done) (awaited : act.isAwaited = true) : hub.Balanced act := by
  unfold Balanced Moment.ends Moment.begins moment
  rw [comes, awaited, Bool.true_and]
  show t.hub.creations.length + t.outcome.isEnd.toNat
    = hub.creations.length + t.outcome.isBeginning.toNat
  rw [h.1, h.2]
  rfl

/-- **What one act does to the number of agents in the making.** -/
theorem balanced_perform (hub : Hub) (act : Act) : hub.Balanced act := by
  cases hub.perform_cases act with
  | handles e => exact (counts_handle hub e).balanced rfl rfl
  | lost x e missing comes => exact balanced_of_idle comes
  | delivers x e c there comes => exact (counts_deliver hub c e).balanced comes rfl
  | unbuilt comes => exact balanced_of_idle comes
  | builds t made comes => exact (settles_built made).balanced comes rfl
  | unanswered answer comes => exact balanced_of_idle comes
  | answers answer t made comes => exact (settles_answered made).balanced comes rfl
  | overhears x id news =>
    obtain ⟨same, silent⟩ := length_creations_overhear hub x id news
    show (hub.overhear x id news).hub.creations.length + 0
      = hub.creations.length + ((hub.overhear x id news).outcome.any (·.isBeginning)).toNat
    rw [same, silent]
    rfl
  | registers className cls => rfl
  | starts config => rfl
  | closes x => exact congrArg List.length (creations_closeContext hub x)

/-- **Whoever has begun to be made is in the making, or has ended once.** -/
theorem balance_after (hub : Hub) (acts : List Act) :
    (hub.after acts).creations.length + (hub.journal acts).countP (·.ends)
      = hub.creations.length + (hub.journal acts).countP (·.begins) := by
  induction acts generalizing hub with
  | nil => rfl
  | cons act rest ih =>
    have first : hub.Balanced act := balanced_perform hub act
    unfold Balanced at first
    have later := ih (hub.perform act).hub
    have count : ∀ b : Bool, (if b = true then 1 else 0) = b.toNat := by decide
    show ((hub.perform act).hub.after rest).creations.length +
        (hub.moment act :: (hub.perform act).hub.journal rest).countP (·.ends)
      = hub.creations.length +
        (hub.moment act :: (hub.perform act).hub.journal rest).countP (·.begins)
    rw [List.countP_cons, List.countP_cons, count, count]
    omega

/-! ## Quotas -/

theorem IsFresh.within {hub : Hub} (fresh : hub.IsFresh) : hub.population.Within where
  agents role := by
    rw [inUse_population]
    unfold inUse live pending
    rw [fresh.contexts, fresh.creations]
    exact Nat.zero_le _
  contexts := by
    unfold population
    rw [fresh.contexts]
    exact Nat.zero_le _

/-- **The quotas are kept.** Whatever happens to a hub, as long as its limits are not moved and no
context makes an agent that it was asked for directly: the agents of a role that are there or have
room kept for them, and the contexts, are never more than the limits allow. Every agent that has
begun to be made is still in the making or has ended, once. As soon as all have, no room is kept
for anybody, and there is room for one more exactly if there are fewer than the limit allows. -/
theorem quotas_are_kept {hub : Hub} (fresh : hub.IsFresh) (acts : List Act)
    (within : ∀ m ∈ hub.journal acts, m.passesQuota = false) :
    (hub.after acts).limits = hub.limits ∧
    (∀ role, (hub.after acts).live role + (hub.after acts).pending role ≤ hub.limits.agents role) ∧
    (hub.after acts).contexts.length ≤ hub.limits.contexts ∧
    (hub.after acts).creations.length + (hub.journal acts).countP (·.ends)
      = (hub.journal acts).countP (·.begins) ∧
    ((hub.journal acts).countP (·.ends) = (hub.journal acts).countP (·.begins) → ∀ role,
      (hub.after acts).pending role = 0 ∧
      ((hub.after acts).hasRoom role = true ↔
        (hub.after acts).live role < hub.limits.agents role)) := by
  obtain ⟨cs, undergoes⟩ := fresh.fit.after acts
  obtain ⟨kept, limits⟩ := fresh.within.run fresh.fit.orderly undergoes.run (undergoes.within within)
  have limits : (hub.after acts).limits = hub.limits := limits
  have balance := balance_after hub acts
  rw [fresh.creations, List.length_nil, Nat.zero_add] at balance
  refine ⟨limits, fun role => ?_, ?_, balance, fun even role => ?_⟩
  · have agents := kept.agents role
    rw [inUse_population] at agents
    rw [← limits]
    exact agents
  · have contexts := kept.contexts
    rw [← limits]
    rwa [show (hub.after acts).population.rosters = Table.mapValues Context.roster _ from rfl,
      Table.length_mapValues] at contexts
  · have nobody : (hub.after acts).creations = [] := List.length_eq_zero_iff.1 (by omega)
    have none : (hub.after acts).pending role = 0 := by
      unfold pending
      rw [nobody]
      rfl
    refine ⟨none, ?_⟩
    unfold hasRoom inUse
    rw [none, limits, Nat.add_zero, decide_eq_true_eq]

/-- A new hub that has room for one sink. -/
def cramped : Hub := { loopback with limits := { sinks := 1 } }

/-- So it is when a second sink is asked for while the first is in the making, and another when that
one is there. -/
theorem quotas_are_kept_when_cramped :
    (cramped.after Act.crowding).live .sink = 1 ∧
      (cramped.journal Act.crowding).countP (·.begins) = 1 ∧
      (cramped.after Act.crowding).pending .sink = 0 ∧
      (cramped.after Act.crowding).hasRoom .sink = false := by
  have within : ∀ m ∈ cramped.journal Act.crowding, m.passesQuota = false := by decide
  obtain ⟨_, _, _, _, free⟩ := quotas_are_kept ⟨rfl, rfl, rfl⟩ Act.crowding within
  obtain ⟨none, room⟩ := free (by decide) .sink
  have live : (cramped.after Act.crowding).live .sink = 1 := by decide
  refine ⟨live, by decide, none, ?_⟩
  rw [Bool.eq_false_iff]
  intro fits
  have less := room.1 fits
  rw [live] at less
  exact Nat.lt_irrefl 1 less

end Hub

end CastHub
