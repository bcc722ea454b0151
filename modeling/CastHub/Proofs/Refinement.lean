import CastHub.Proofs.Discretion
import CastHub.Proofs.History
import CastHub.Proofs.Operations
/-!
# Hubs as populations

A hub is seen as the population of its contexts (`Hub.population`), and each of its operations as a
few small steps of that population (`Hub.Goes`). So whatever is known about the histories of
populations is known about hubs.

* `Hub.Fit` : a hub whose population is in order and whose books are tidy, whatever numbers it has
  handed out;
* `Hub.Turns` : what is known of an operation of the hub, who leaves on its way included;
* `Hub.Turns.trans` : one operation after another.

Here are the operations that all others are made of: contexts are written back, opened and closed.
-/

namespace CastHub

open Population (gone)

/-- An agent in the making as a population sees it. -/
def Creation.arrival (creation : Creation) : Arrival :=
  { context := creation.context, member := creation.agent.member,
    counted := creation.origin.isCounted }

/-- What is known about whoever asked for an agent: it was not a context by itself, an event that
asks a context is of the kind that does, and a request to the hub says what it asks for. -/
def Origin.IsApt : Origin → Prop
  | .direct => False
  | .event e => e.kind = .contextCreateAgent
  | .request e _ => ∃ msg, e.payload.contextMsg? = some msg

/-- The notice that somebody is gone. -/
def partingOf (g : Id × Member) : Payload := Context.partingNotice g.1 g.2.id g.2.role

/-- Who somebody is, and where. -/
def whose (g : Id × Member) : Id × Id := (g.1, g.2.id)

/-- Changes among which contexts are released over the heads of their agents only if `releases`, and
quotas are passed only if `evades`. -/
structure Calm (releases evades : Bool) (cs : List Change) : Prop where
  kept : releases = false → ∀ x, .released x ∉ cs
  within : evades = false → ∀ c ∈ cs, c.passesQuota = false

theorem calm_nil {releases evades : Bool} : Calm releases evades [] where
  kept _ _ mem := by cases mem
  within _ _ mem := by cases mem

theorem calm_singleton {releases evades : Bool} {c : Change}
    (kept : releases = false → ∀ x, c ≠ .released x)
    (within : evades = false → c.passesQuota = false) : Calm releases evades [c] where
  kept none x mem := kept none x (List.mem_singleton.1 mem).symm
  within none _ mem := List.mem_singleton.1 mem ▸ within none

theorem Calm.append {releases evades : Bool} {cs ds : List Change} (h : Calm releases evades cs)
    (h' : Calm releases evades ds) : Calm releases evades (cs ++ ds) where
  kept none x mem := (List.mem_append.1 mem).elim (h.kept none x) (h'.kept none x)
  within none c mem := (List.mem_append.1 mem).elim (h.within none c) (h'.within none c)

theorem Calm.weaken {releases evades releases' evades' : Bool} {cs : List Change}
    (h : Calm releases evades cs) (kept : releases' = false → releases = false)
    (within : evades' = false → evades = false) : Calm releases' evades' cs where
  kept none := h.kept (kept none)
  within none := h.within (within none)

namespace Hub

/-- The population of a hub. -/
def population (hub : Hub) : Population where
  rosters := hub.contexts.mapValues Context.roster
  detached := hub.detached.mapValues Context.roster
  arrivals := hub.creations.map Creation.arrival
  limits := hub.limits

theorem get?_rosters (hub : Hub) (x : Id) :
    hub.population.rosters.get? x = (hub.contexts.get? x).map Context.roster :=
  Table.get?_mapValues ..

theorem get?_detached (hub : Hub) (x : Id) :
    hub.population.detached.get? x = (hub.detached.get? x).map Context.roster :=
  Table.get?_mapValues ..

theorem roster_of_held {hub : Hub} {x : Id} {c : Context} (held : hub.contexts.get? x = some c) :
    hub.population.rosters.get? x = some c.roster := by
  rw [get?_rosters, held]
  rfl

theorem roster_of_released {hub : Hub} {x : Id} {c : Context}
    (released : hub.detached.get? x = some c) :
    hub.population.detached.get? x = some c.roster := by
  rw [get?_detached, released]
  rfl

theorem context?_eq_some {hub : Hub} {x : Id} {c : Context} (h : hub.context? x = some c) :
    hub.contexts.get? x = some c ∨
      (hub.contexts.get? x = none ∧ hub.detached.get? x = some c) := by
  unfold context? at h
  cases held : hub.contexts.get? x with
  | some d =>
    rw [held] at h
    exact .inl h
  | none =>
    rw [held] at h
    exact .inr ⟨rfl, h⟩

theorem context?_of_held {hub : Hub} {x : Id} {c : Context} (held : hub.contexts.get? x = some c) :
    hub.context? x = some c := by
  unfold context?
  rw [held]
  rfl

/-- A context, held or released, is among the rosters. -/
theorem holds_of_context? {hub : Hub} {x : Id} {c : Context} (there : hub.context? x = some c) :
    hub.population.Holds x c.roster := by
  rcases context?_eq_some there with held | ⟨missing, released⟩
  · exact Population.holds_of_held (roster_of_held held)
  · refine Population.holds_of_released ?_ (roster_of_released released)
    rw [get?_rosters, missing]
    rfl

/-- The hub and its population count alike. -/
theorem inUse_population (hub : Hub) (role : Role) :
    hub.population.inUse role = hub.inUse role := by
  have live : hub.population.live role = hub.live role := by
    unfold Population.live Population.present Hub.live population Table.mapValues
    induction hub.contexts with
    | nil => rfl
    | cons e rest ih =>
      rw [List.map_cons, List.flatMap_cons, List.countP_append, ih, List.foldr_cons]
      refine congrArg (· + _) ?_
      unfold Population.attendance Roster.people Context.roster Context.count Table.mapValues
      rw [List.map_map, List.map_map, List.countP_map]
      rfl
  have pending : hub.population.pending role = hub.pending role := by
    unfold Population.pending Hub.pending population
    rw [List.countP_map]
    rfl
  unfold Population.inUse Hub.inUse
  rw [live, pending]

theorem hasRoom_population (hub : Hub) (role : Role) : hub.hasRoom role
    = decide (hub.population.inUse role < hub.population.limits.agents role) := by
  rw [inUse_population]
  rfl

/-! ## Hubs in order -/

/-- The hub's books are tidy: contexts stand under their own identities, those that are held are not
being destroyed and those that were released are; and whoever waits for a channel is a sink. -/
structure Tidy (hub : Hub) : Prop where
  held : ∀ {x c}, hub.contexts.get? x = some c → c.id = x ∧ c.destroying = false
  released : ∀ {x c}, hub.detached.get? x = some c → c.id = x ∧ c.destroying = true
  apt : ∀ creation ∈ hub.creations, creation.origin.IsApt
  waiting : ∀ creation ∈ hub.creations, creation.awaited = .channel → creation.agent.role = .sink

/-- Books that list no more creations than before are as tidy. -/
theorem Tidy.fewer {hub hub' : Hub} (h : hub.Tidy) (contexts : hub'.contexts = hub.contexts)
    (detached : hub'.detached = hub.detached) (fewer : hub'.creations ⊆ hub.creations) :
    hub'.Tidy where
  held there := h.held (contexts ▸ there)
  released there := h.released (detached ▸ there)
  apt creation mem := h.apt creation (fewer mem)
  waiting creation mem := h.waiting creation (fewer mem)

/-- One more creation is listed. -/
theorem Tidy.cons {hub hub' : Hub} (h : hub.Tidy) {creation : Creation} {rest : List Creation}
    (contexts : hub'.contexts = hub.contexts) (detached : hub'.detached = hub.detached)
    (listed : hub'.creations = creation :: rest) (fewer : rest ⊆ hub.creations)
    (apt : creation.origin.IsApt)
    (waiting : creation.awaited = .channel → creation.agent.role = .sink) : hub'.Tidy := by
  constructor
  · exact fun there => h.held (contexts ▸ there)
  · exact fun there => h.released (detached ▸ there)
  · rw [listed]
    exact List.forall_mem_cons.2 ⟨apt, fun other mem => h.apt other (fewer mem)⟩
  · rw [listed]
    exact List.forall_mem_cons.2 ⟨waiting, fun other mem => h.waiting other (fewer mem)⟩

theorem Tidy.id {hub : Hub} (h : hub.Tidy) {x : Id} {c : Context}
    (there : hub.context? x = some c) : c.id = x := by
  rcases context?_eq_some there with held | ⟨_, released⟩
  · exact (h.held held).1
  · exact (h.released released).1

/-- A hub that is in order. -/
structure Fit (hub : Hub) : Prop where
  orderly : hub.population.Orderly
  tidy : hub.Tidy

theorem Fit.filed {hub : Hub} (h : hub.Fit) {x : Id} {c : Context}
    (held : hub.contexts.get? x = some c) : c.roster.Filed :=
  h.orderly.filed_of_held (roster_of_held held)

theorem Fit.sorted {hub : Hub} (h : hub.Fit) {x : Id} {c : Context}
    (there : hub.context? x = some c) : c.roster.Sorted :=
  (h.orderly.filed (holds_of_context? there)).sorted

/-! ## Operations -/

/-- What an operation comes to: the hub becomes another one by a few steps of its population, the
numbers that these take are the next ones, and if all sessions are discreet meanwhile, it says that
exactly those are gone who have left. -/
structure Goes (hub : Hub) (cs : List Change) (effects : List Effect) (hub' : Hub) : Prop where
  run : Population.Run hub.population cs hub'.population
  tidy : hub'.Tidy
  draws : hub.ids.Draws (Population.minted cs) hub'.ids
  said : AllDiscreet effects → noticesAmong effects = (gone cs).map partingOf

theorem Fit.refl {hub : Hub} (h : hub.Fit) : hub.Goes [] [] hub where
  run := .nil
  tidy := h.tidy
  draws := IdSource.draws_nil _
  said _ := rfl

theorem Goes.trans {a b c : Hub} {cs ds : List Change} {first second : List Effect}
    (h : a.Goes cs first b) (h' : b.Goes ds second c) : a.Goes (cs ++ ds) (first ++ second) c where
  run := h.run.append h'.run
  tidy := h'.tidy
  draws := by
    rw [Population.minted_append]
    exact h.draws.append h'.draws
  said discreet := by
    obtain ⟨before, later⟩ := allDiscreet_append.1 discreet
    rw [noticesAmong_append, Population.gone_append, List.map_append, h.said before, h'.said later]

/-- What an operation of the hub comes to: it releases no context by force, passes the quotas only
if `evades`, takes no more than so many numbers, and whoever leaves is the one who is `removed`. -/
def Turns (hub : Hub) (evades : Bool) (n : Nat) (removed : Option (Id × Id))
    (effects : List Effect) (hub' : Hub) : Prop :=
  ∃ cs, hub.Goes cs effects hub' ∧ Calm false evades cs ∧ (Population.minted cs).length ≤ n ∧
    (gone cs).map whose = removed.toList

/-- Nothing is done. -/
theorem Fit.rests {hub : Hub} (h : hub.Fit) {evades : Bool} {n : Nat} :
    hub.Turns evades n none [] hub := ⟨[], h.refl, calm_nil, Nat.zero_le _, rfl⟩

theorem Goes.turns_nil {hub hub' : Hub} {evades : Bool} {n : Nat} {effects : List Effect}
    (goes : hub.Goes [] effects hub') : hub.Turns evades n none effects hub' :=
  ⟨[], goes, calm_nil, Nat.zero_le _, rfl⟩

/-- One step in which nobody leaves. -/
theorem Goes.turns {hub hub' : Hub} {evades : Bool} {n : Nat} {c : Change}
    {effects : List Effect} (goes : hub.Goes [c] effects hub') (kept : ∀ x, c ≠ .released x)
    (nobody : c.leaves = []) (few : c.mints.length ≤ n)
    (within : evades = false → c.passesQuota = false) :
    hub.Turns evades n none effects hub' := by
  refine ⟨[c], goes, calm_singleton (fun _ => kept) within, ?_, ?_⟩
  · rwa [show Population.minted [c] = c.mints from List.append_nil _]
  · rw [show gone [c] = c.leaves from List.append_nil _, nobody]
    rfl

/-- One operation and then another, in which nobody leaves. -/
theorem Turns.trans {a b c : Hub} {evades : Bool} {n k : Nat} {removed : Option (Id × Id)}
    {first second : List Effect} (h : a.Turns evades n removed first b)
    (h' : b.Turns evades k none second c) :
    a.Turns evades (n + k) removed (first ++ second) c := by
  obtain ⟨cs, goes, calm, few, left⟩ := h
  obtain ⟨ds, goes', calm', few', nobody⟩ := h'
  refine ⟨cs ++ ds, goes.trans goes', calm.append calm', ?_, ?_⟩
  · rw [Population.minted_append, List.length_append]
    exact Nat.add_le_add few few'
  · rw [Population.gone_append, List.map_append, left, nobody]
    exact List.append_nil _

theorem Fit.goes {hub hub' : Hub} {cs : List Change} {effects : List Effect} (h : hub.Fit)
    (goes : hub.Goes cs effects hub') : hub'.Fit := ⟨h.orderly.run goes.run, goes.tidy⟩

theorem Fit.turned {hub hub' : Hub} {evades : Bool} {n : Nat} {removed : Option (Id × Id)}
    {effects : List Effect} (h : hub.Fit) (turns : hub.Turns evades n removed effects hub') :
    hub'.Fit := by
  obtain ⟨_, goes, _, _, _⟩ := turns
  exact h.goes goes

/-! ## Writing contexts back -/

theorem keep_of_held {hub : Hub} {x : Id} {c c' : Context} (held : hub.contexts.get? x = some c)
    (same : c'.id = x) : hub.keep c' = { hub with contexts := hub.contexts.put x c' } := by
  subst same
  unfold keep Table.has
  rw [held]
  rfl

theorem keep_of_missing {hub : Hub} {x : Id} {c' : Context} (missing : hub.contexts.get? x = none)
    (same : c'.id = x) : hub.keep c' = { hub with detached := hub.detached.put x c' } := by
  subst same
  unfold keep Table.has
  rw [missing]
  rfl

theorem get?_keep {hub : Hub} {x : Id} {c c' : Context} (held : hub.contexts.get? x = some c)
    (same : c'.id = x) : (hub.keep c').contexts.get? x = some c' := by
  rw [keep_of_held held same, Table.get?_put, if_pos rfl]

theorem population_keep_of_held {hub : Hub} {x : Id} {c c' : Context}
    (held : hub.contexts.get? x = some c) (same : c'.id = x) :
    (hub.keep c').population
      = { hub.population with rosters := hub.population.rosters.put x c'.roster } := by
  have put : Table.mapValues Context.roster (hub.contexts.put x c')
      = hub.population.rosters.put x c'.roster := Table.mapValues_put ..
  rw [keep_of_held held same, ← put]
  rfl

theorem population_keep_of_missing {hub : Hub} {x : Id} {c' : Context}
    (missing : hub.contexts.get? x = none) (same : c'.id = x) :
    (hub.keep c').population
      = { hub.population with detached := hub.population.detached.put x c'.roster } := by
  have put : Table.mapValues Context.roster (hub.detached.put x c')
      = hub.population.detached.put x c'.roster := Table.mapValues_put ..
  rw [keep_of_missing missing same, ← put]
  rfl

theorem Tidy.keep {hub : Hub} (h : hub.Tidy) {x : Id} {c c' : Context}
    (there : hub.context? x = some c) (remains : c.Remains c') : (hub.keep c').Tidy := by
  have same : c'.id = x := remains.id.trans (h.id there)
  rcases context?_eq_some there with held | ⟨missing, released⟩
  · rw [keep_of_held held same]
    refine ⟨?_, h.released, h.apt, h.waiting⟩
    intro y d there
    rcases Table.get?_put_cases there with ⟨rfl, rfl⟩ | there
    · exact ⟨same, remains.destroying.trans (h.held held).2⟩
    · exact h.held there
  · rw [keep_of_missing missing same]
    refine ⟨h.held, ?_, h.apt, h.waiting⟩
    intro y d there
    rcases Table.get?_put_cases there with ⟨rfl, rfl⟩ | there
    · exact ⟨same, remains.destroying.trans (h.released released).2⟩
    · exact h.released there

/-- A context that is held is written back after its roster has taken some steps. -/
theorem Fit.keep {hub : Hub} (h : hub.Fit) {x : Id} {c c' : Context} {cs : List Change}
    {effects : List Effect} (held : hub.contexts.get? x = some c) (remains : c.Remains c')
    (run : Population.Run hub.population cs
      { hub.population with rosters := hub.population.rosters.put x c'.roster })
    (mints : Population.minted cs = [])
    (said : AllDiscreet effects → noticesAmong effects = (gone cs).map partingOf) :
    hub.Goes cs effects (hub.keep c') where
  run := by
    rw [population_keep_of_held held (remains.id.trans (h.tidy.held held).1)]
    exact run
  tidy := h.tidy.keep (context?_of_held held) remains
  draws := by
    rw [ids_keep, mints]
    exact IdSource.draws_nil _
  said := said

theorem Fit.population_keep {hub : Hub} (h : hub.Fit) {x : Id} {c c' : Context}
    (there : hub.context? x = some c) (remains : c.Remains c') (same : c'.roster = c.roster) :
    (hub.keep c').population = hub.population := by
  have isX : c'.id = x := remains.id.trans (h.tidy.id there)
  rcases context?_eq_some there with held | ⟨missing, released⟩
  · rw [population_keep_of_held held isX, same, Table.put_self h.orderly.sorted (roster_of_held held)]
  · rw [population_keep_of_missing missing isX, same,
      Table.put_self h.orderly.sortedDetached (roster_of_released released)]

/-- A context, held or released, whose roster is as it was. -/
theorem Fit.keep_same {hub : Hub} (h : hub.Fit) {x : Id} {c c' : Context} {effects : List Effect}
    (there : hub.context? x = some c) (remains : c.Remains c') (same : c'.roster = c.roster)
    (quiet : IsQuiet effects) : hub.Goes [] effects (hub.keep c') where
  run := by
    rw [h.population_keep there remains same]
    exact .nil
  tidy := h.tidy.keep there remains
  draws := by
    rw [ids_keep]
    exact IdSource.draws_nil _
  said := quiet

/-- A context that takes an event in. -/
theorem Fit.keep_received {hub : Hub} (h : hub.Fit) {x : Id} {c c' : Context} {e : Event}
    (held : hub.contexts.get? x = some c) (received : c.receive e = .ok c') :
    hub.Goes [] [] (hub.keep c') :=
  have same := Context.roster_receive received
  h.keep_same (context?_of_held held) same.2 same.1 isQuiet_nil

/-! ## Opening and closing contexts -/

theorem Fit.openContext {hub hub' : Hub} {c : Context} (h : hub.Fit)
    (opened : hub.openContext = .ok (c, hub')) :
    hub.Goes [.opened c.id] [] hub' ∧ hub'.contexts.get? c.id = some c ∧
      ∀ role, hub.hasRoom role = true → hub'.hasRoom role = true := by
  obtain ⟨room, id, ids, minted, rfl, rfl⟩ := openContext_eq_ok opened
  have assigned : id ≠ .unassigned := IdSource.ne_unassigned_of_mint minted
  have put : Table.mapValues Context.roster (hub.contexts.put id { id })
      = hub.population.rosters.put id [] := Table.mapValues_put ..
  have fits : hub.population.rosters.length < hub.population.limits.contexts := by
    show (Table.mapValues Context.roster hub.contexts).length < hub.limits.contexts
    rw [Table.length_mapValues]
    exact room
  have step : Population.Step hub.population (.opened id)
      { hub.population with rosters := hub.population.rosters.put id [] } :=
    .opened id assigned fits
  have becomes : Hub.population { hub with ids, contexts := hub.contexts.put id { id } }
      = { hub.population with rosters := hub.population.rosters.put id [] } := by
    rw [← put]
    rfl
  refine ⟨⟨?_, ⟨?_, h.tidy.released, h.tidy.apt, h.tidy.waiting⟩, ?_, fun _ => rfl⟩, ?_, ?_⟩
  · rw [becomes]
    exact .single step
  · intro y d there
    rcases Table.get?_put_cases there with ⟨rfl, rfl⟩ | there
    · exact ⟨rfl, rfl⟩
    · exact h.tidy.held there
  · exact IdSource.draws_mint minted
  · show (hub.contexts.put id { id }).get? id = some { id }
    rw [Table.get?_put, if_pos rfl]
  · -- a context in which nobody is takes no room from agents
    intro role before
    rw [hasRoom_population, becomes]
    rw [hasRoom_population] at before
    exact decide_eq_true (Nat.lt_of_le_of_lt
      (Nat.add_le_add_right (h.orderly.live_open id role) _) (of_decide_eq_true before))

theorem closeContext_of_held {hub : Hub} {x : Id} {c : Context}
    (held : hub.contexts.get? x = some c) :
    (hub.closeContext x).1
      = { hub with
          contexts := hub.contexts.erase x
          detached := hub.detached.put x c.release } ∧
    noticesAmong (hub.closeContext x).2 = [] := by
  unfold closeContext
  rw [held]
  refine ⟨rfl, ?_⟩
  show noticesAmong (if _ then _ else _) = []
  split <;> rfl

theorem closeContext_of_missing {hub : Hub} {x : Id} (missing : hub.contexts.get? x = none) :
    hub.closeContext x = (hub, []) := by
  unfold closeContext
  rw [missing]

/-- A context that is held is closed, for whatever reason. -/
theorem Fit.closeContext {hub : Hub} (h : hub.Fit) {x : Id} {c : Context} {ch : Change}
    (held : hub.contexts.get? x = some c)
    (step : Population.Step hub.population ch (hub.population.detach x)) (nobody : ch.leaves = [])
    (mints : ch.mints = []) : hub.Goes [ch] (hub.closeContext x).2 (hub.closeContext x).1 := by
  obtain ⟨closed, silent⟩ := closeContext_of_held held
  have isX := (h.tidy.held held).1
  have erased : Table.mapValues Context.roster (hub.contexts.erase x)
      = hub.population.rosters.erase x := Table.mapValues_erase ..
  have put : Table.mapValues Context.roster (hub.detached.put x c.release)
      = hub.population.detached.put x [] := Table.mapValues_put ..
  rw [closed]
  refine ⟨?_, ⟨fun there => h.tidy.held (Table.get?_of_get?_erase there), ?_, h.tidy.apt,
    h.tidy.waiting⟩, ?_, fun _ => ?_⟩
  · show Population.Run _ _ { hub.population with
      rosters := Table.mapValues Context.roster _, detached := Table.mapValues Context.roster _ }
    rw [erased, put]
    exact .single step
  · intro y d there
    rcases Table.get?_put_cases there with ⟨rfl, rfl⟩ | there
    · exact ⟨isX, rfl⟩
    · exact h.tidy.released there
  · rw [show Population.minted [ch] = ch.mints from List.append_nil _, mints]
    exact IdSource.draws_nil _
  · rw [silent, show gone [ch] = ch.leaves from List.append_nil _, nobody]
    rfl

/-- A context in which nobody is may be closed at any time. -/
theorem Fit.closeEmpty {hub : Hub} (h : hub.Fit) {x : Id} {c : Context}
    (held : hub.contexts.get? x = some c) (empty : c.isEmpty = true) {evades : Bool} {n : Nat} :
    hub.Turns evades n none (hub.closeContext x).2 (hub.closeContext x).1 := by
  have nobody : hub.population.rosters.get? x = some [] := by
    rw [roster_of_held held, Context.roster_eq_nil.2 empty]
  exact (h.closeContext held (.closed x nobody) rfl rfl).turns (by rintro y ⟨⟩) rfl
    (Nat.zero_le _) fun _ => rfl

theorem Fit.closeIfEmpty {hub : Hub} (h : hub.Fit) (x : Id) {evades : Bool} {n : Nat} :
    hub.Turns evades n none (hub.closeIfEmpty x).2 (hub.closeIfEmpty x).1 := by
  rcases hub.closeIfEmpty_cases x with same | ⟨c, held, empty, closes⟩
  · rw [same]
    exact h.rests
  · rw [closes]
    exact h.closeEmpty held empty

end Hub

end CastHub
