import CastHub.Proofs.Address
import CastHub.Proofs.Destruction
import CastHub.Proofs.Loopback
/-!
# What is said in a context

While a context carries an event out, it calls the sessions of its agents, and what a session says
meanwhile is passed on at once: right after the call, in the order in which it was said. Apart from
that a context gives its clients notice; nothing else is ever said (`Context.Speaks`).

Meanwhile nobody joins the context, and whoever is in it remains who it is and keeps its session,
which has been called some more (`Agent.Persists`, `Context.Evolves`).

* `Agent.speaks_handle` : an event for an agent;
* `Context.Talks.trans` : one operation of a context after another;
* `Context.talks_carryOut` : an event for a context;
* `Context.Speaks.after_call`, `Context.Speaks.of_post` : what that says of a single call and of a
  single event that is sent.
-/

namespace CastHub

/-! ## Later on -/

/-- The session `t` is what has become of `s`: it has been called some more. -/
structure Session.Grows (s t : Session) : Prop where
  cls : t.cls = s.cls
  number : t.number = s.number
  past : s.past <:+ t.past

namespace Session

theorem Grows.refl (s : Session) : s.Grows s := ⟨rfl, rfl, List.suffix_rfl⟩

theorem Grows.trans {r s t : Session} (h : r.Grows s) (h' : s.Grows t) : r.Grows t :=
  ⟨h'.cls.trans h.cls, h'.number.trans h.number, h.past.trans h'.past⟩

theorem grows_call (s : Session) (k : SessionCall) : s.Grows (s.call k).2 :=
  ⟨rfl, rfl, List.suffix_cons ..⟩

end Session

/-- The agent `b` is what has become of `a`: the same endpoint with the same session. -/
structure Agent.Persists (a b : Agent) : Prop where
  who : b.member.who = a.member.who
  session : Option.Rel Session.Grows a.session b.session

namespace Agent

theorem session_rel_refl (session : Option Session) : Option.Rel Session.Grows session session := by
  cases session with
  | none => exact .none
  | some s => exact .some (.refl s)

theorem Persists.refl (a : Agent) : a.Persists a := ⟨rfl, session_rel_refl _⟩

/-- An agent whose session is left alone. -/
theorem persists_of_same {a b : Agent} (who : b.member.who = a.member.who)
    (session : b.session = a.session) : a.Persists b :=
  ⟨who, session ▸ session_rel_refl _⟩

theorem Persists.trans {a b c : Agent} (h : a.Persists b) (h' : b.Persists c) : a.Persists c where
  who := h'.who.trans h.who
  session := by
    have first := h.session
    have second := h'.session
    revert first second
    cases b.session with
    | none =>
      generalize a.session = before, c.session = after
      rintro ⟨⟩ ⟨⟩
      exact .none
    | some s =>
      generalize a.session = before, c.session = after
      rintro (grows | _) (grows' | _)
      exact .some (grows.trans grows')

section Persists

variable {a b : Agent} (h : a.Persists b)
include h

theorem Persists.id : b.id = a.id := congrArg Member.id h.who

theorem Persists.role : b.role = a.role := congrArg Member.role h.who

theorem Persists.channel : b.channel = a.channel := congrArg Member.channel h.who

/-- An agent that has a session keeps it. -/
theorem Persists.session_some {s : Session} (has : a.session = some s) :
    ∃ t, b.session = some t ∧ s.Grows t := by
  have kept := h.session
  rw [has] at kept
  cases same : b.session with
  | none =>
    rw [same] at kept
    cases kept
  | some t =>
    rw [same] at kept
    cases kept with
    | some grows => exact ⟨t, rfl, grows⟩

/-- An agent has no session that it did not have. -/
theorem Persists.some_of_session {t : Session} (has : b.session = some t) :
    ∃ s, a.session = some s ∧ s.Grows t := by
  have kept := h.session
  rw [has] at kept
  cases same : a.session with
  | none =>
    rw [same] at kept
    cases kept
  | some s =>
    rw [same] at kept
    cases kept with
    | some grows => exact ⟨s, rfl, grows⟩

end Persists

/-! ## What an agent reports -/

theorem reports_hearFault (a : Agent) (fault : Fault) : (a.hearFault fault).2
    = [{ a.statusMsg .interaction .noticeError with fault := some fault }] := by
  show reports { (if fault.isFatal then a.leave .error else a).statusMsg .interaction .noticeError
    with fault := some fault } = _
  split <;> rfl

/-- All messages of an agent bear its own identity. -/
theorem agent_of_hear {a : Agent} {news : SessionNews} {m : StatusMsg} (mem : m ∈ (a.hear news).2) :
    m.agent = a.id := by
  have own : ∀ n : StatusMsg, n.agent = a.id → m ∈ reports n → m.agent = a.id := by
    intro n isOwn mem
    unfold reports at mem
    split at mem
    · exact List.mem_singleton.1 mem ▸ isOwn
    · cases mem
  cases news with
  | destroyed =>
    refine own a.farewell ?_ mem
    unfold farewell
    split <;> rfl
  | interrupted => cases mem
  | error fault =>
    change m ∈ (a.hearFault fault).2 at mem
    rw [reports_hearFault] at mem
    exact List.mem_singleton.1 mem ▸ rfl
  | privateNews target kind detail => exact own { a.statusMsg target kind with detail } rfl mem
  | _ =>
    obtain rfl := List.mem_singleton.1 mem
    rfl

/-- What an agent makes of news depends on who it is and on its run-step. -/
theorem reports_hear_congr {a b : Agent} (who : b.member.who = a.member.who)
    (step : b.step = a.step) (news : SessionNews) : (b.hear news).2 = (a.hear news).2 := by
  have id : b.id = a.id := congrArg Member.id who
  have role : b.role = a.role := congrArg Member.role who
  cases news with
  | error fault =>
    show (b.hearFault fault).2 = (a.hearFault fault).2
    simp only [reports_hearFault, statusMsg, id, role]
  | destroyed =>
    show reports b.farewell = reports a.farewell
    rw [farewell_of_same id role]
  | prosumer change => simp only [hear, statusMsg, id, role]
  | privateNews target kind detail => simp only [hear, statusMsg, id, role]
  | interrupted => rfl
  | _ => simp only [hear, stepDone, statusMsg, id, role, step]

/-- What an agent makes of several pieces of news is what it makes of each of them. -/
theorem reports_hearAll {a b : Agent} (who : b.member.who = a.member.who) (step : b.step = a.step)
    (news : List SessionNews) : (b.hearAll news).2 = news.flatMap fun n => (a.hear n).2 := by
  induction news generalizing b with
  | nil => rfl
  | cons n rest ih =>
    have same : (b.hear n).1.member.who = a.member.who :=
      (congrArg Member.who (b.member_hear n)).trans who
    show (b.hear n).2 ++ ((b.hear n).1.hearAll rest).2 = _
    rw [ih same ((b.step_hear n).trans step), reports_hear_congr who step]
    rfl

/-! ## What an agent does -/

/-- What the agent `a` does while an event is handled: each call of its session is followed at once
by reports of what the session says, and apart from that it reports faults. -/
inductive Speaks (a : Agent) : List AgentAct → Prop
  | nil : a.Speaks []
  | fault {m : StatusMsg} {rest : List AgentAct} (kind : m.kind = .noticeError)
      (speaks : a.Speaks rest) : a.Speaks (.report m :: rest)
  | call {b : Agent} {s : Session} {k : SessionCall} {rest : List AgentAct} (later : a.Persists b)
      (has : b.session = some s) (speaks : a.Speaks rest) :
      a.Speaks (.call s k ::
        ((s.call k).1.news.flatMap fun n => (b.hear n).2).map .report ++ rest)

/-- An operation on an agent: what it does, and what becomes of it. -/
structure Talks (a : Agent) (t : AgentTurn) : Prop where
  persists : a.Persists t.agent
  speaks : a.Speaks t.acts

theorem talks_nothing {a : Agent} (result : Except Fault Unit) :
    a.Talks { agent := a, result } := ⟨.refl a, .nil⟩

theorem Speaks.preceded {a b : Agent} {acts : List AgentAct} (h : a.Persists b)
    (speaks : b.Speaks acts) : a.Speaks acts := by
  induction speaks with
  | nil => exact .nil
  | fault kind _ ih => exact .fault kind ih
  | call later has _ ih => exact .call (h.trans later) has ih

theorem talks_callSession {a : Agent} {s : Session} (has : a.session = some s) (k : SessionCall) :
    a.Talks (a.callSession s k) := by
  unfold callSession
  split
  · have who : (hearAll { a with session := some (s.call k).2 } (s.call k).1.news).1.member.who
        = a.member.who := congrArg Member.who (member_hearAll ..)
    have said : (hearAll { a with session := some (s.call k).2 } (s.call k).1.news).2
        = (s.call k).1.news.flatMap fun n => (a.hear n).2 :=
      @reports_hearAll a { a with session := some (s.call k).2 } rfl rfl _
    refine ⟨⟨who, ?_⟩, ?_⟩
    · show Option.Rel _ _ (hearAll { a with session := some (s.call k).2 } _).1.session
      rw [session_hearAll, has]
      exact .some (s.grows_call k)
    · show a.Speaks (.call s k :: List.map _ _)
      rw [said, ← List.append_nil (List.map _ _)]
      exact .call (.refl a) has .nil
  · exact talks_nothing _

theorem talks_drive (a : Agent) (k : SessionCall) : a.Talks (a.drive k) := by
  unfold drive
  split
  · exact talks_nothing _
  · rename_i s has
    exact talks_callSession has k

theorem Speaks.append {a : Agent} {acts more : List AgentAct} (h : a.Speaks acts)
    (h' : a.Speaks more) : a.Speaks (acts ++ more) := by
  induction h with
  | nil => exact h'
  | fault kind _ ih => exact .fault kind ih
  | call later has _ ih =>
    rw [List.append_assoc]
    exact .call later has ih

theorem Talks.followedBy {a : Agent} {t : AgentTurn} {f : Agent → AgentTurn} (h : a.Talks t)
    (h' : t.agent.Talks (f t.agent)) : a.Talks (t.followedBy f) :=
  ⟨h.persists.trans h'.persists, h.speaks.append (h'.speaks.preceded h.persists)⟩

theorem Talks.preceded {a b : Agent} {t : AgentTurn} (persists : a.Persists b) (h : b.Talks t) :
    a.Talks t := ⟨persists.trans h.persists, h.speaks.preceded persists⟩

/-- Entering a run-step changes neither who an agent is nor its session. -/
theorem persists_of_entered {a b : Agent} {step : RunStep} (entry : a.enter step = .entered b) :
    a.Persists b := by
  obtain ⟨-, rfl⟩ := eq_of_entered entry
  exact persists_of_same rfl rfl

theorem talks_handleStep (a : Agent) (e : Event) (step : RunStep) :
    a.Talks (a.handleStep e step) := by
  unfold handleStep
  split
  · exact talks_nothing _
  · exact talks_nothing _
  · rename_i b entry
    have marked : b.Persists (if step = .destroy then { b with destroying := true } else b) := by
      split
      · exact persists_of_same rfl rfl
      · exact .refl b
    refine Talks.preceded ((persists_of_entered entry).trans marked) ?_
    generalize (if step = .destroy then { b with destroying := true } else b) = d
    show d.Talks (if step = .appendSurface ∨ step = .removeSurface then _ else _)
    split
    · exact Talks.followedBy (d.talks_drive _) (talks_drive _ _)
    · exact d.talks_drive _

/-- **What an agent does when it is sent an event**: it remains who it is, and passes on what its
session says. -/
theorem talks_handle (a : Agent) (e : Event) : a.Talks (a.handle e) := by
  unfold handle
  split
  · exact talks_nothing _
  · split
    · exact talks_drive ..
    · have heard : a.Persists (a.hearFault (faultOf e)).1 :=
        persists_of_same (congrArg Member.who (a.member_hear (.error (faultOf e))))
          (a.session_hear (.error (faultOf e)))
      refine ⟨heard, ?_⟩
      show a.Speaks ((a.hearFault (faultOf e)).2.map .report)
      rw [reports_hearFault]
      exact .fault rfl .nil
    · split
      · exact talks_nothing _
      · exact talks_handleStep ..

theorem persists_overhear (a : Agent) (news : SessionNews) : a.Persists (a.overhear news).agent :=
  persists_of_same (congrArg Member.who (a.member_hear news)) (a.session_hear news)

end Agent

/-! ## What a context says -/

namespace Context

/-- The events that an agent's messages become, in order. -/
def passOn (c : Context) (msgs : List StatusMsg) : List Effect :=
  (msgs.map .report).filterMap c.effectOf?

/-- What is said while agents of the context `c` are spoken to: each call of a session is followed
at once by what the session says, passed on as its agent reports it; apart from that clients are
given notice. -/
inductive Speaks (c : Context) : List Effect → Prop
  | nil : c.Speaks []
  | notice {e : Event} {rest : List Effect}
      (kind : e.kind = .noticeDestroyed ∨ e.kind = .noticeError) (own : e.src = c.id)
      (speaks : c.Speaks rest) : c.Speaks (.post e :: rest)
  | call {a b : Agent} {s : Session} {k : SessionCall} {rest : List Effect}
      (here : c.agents.get? b.id = some a) (later : a.Persists b) (has : b.session = some s)
      (speaks : c.Speaks rest) :
      c.Speaks (.call s k :: (s.call k).1.news.flatMap (fun n => c.passOn (b.hear n).2) ++ rest)

/-- The context `c'` is what has become of `c`: whoever is in it was in `c`, and whoever has left it
had left `c` or was in it. -/
structure Evolves (c c' : Context) : Prop where
  id : c'.id = c.id
  agents : ∀ {id b}, c'.agents.get? id = some b → ∃ a, c.agents.get? id = some a ∧ a.Persists b
  retired : ∀ {id b}, c'.retired.get? id = some b →
    ∃ a, (c.agents.get? id = some a ∨ c.retired.get? id = some a) ∧ a.Persists b

/-- Agents stand under their own identities. -/
def Keyed (c : Context) : Prop := ∀ {id a}, c.agents.get? id = some a → a.id = id

/-- An operation of a context: what is said, and what becomes of it. -/
structure Talks (c c' : Context) (effects : List Effect) : Prop where
  evolves : c.Evolves c'
  interaction : c'.interaction = c.interaction
  speaks : c.Speaks effects

variable {c c' : Context} {effects more : List Effect}

theorem Evolves.refl (c : Context) : c.Evolves c where
  id := rfl
  agents here := ⟨_, here, .refl _⟩
  retired left := ⟨_, .inr left, .refl _⟩

theorem Evolves.trans {d : Context} (h : c.Evolves c') (h' : c'.Evolves d) : c.Evolves d where
  id := h'.id.trans h.id
  agents here := by
    obtain ⟨b, between, persists'⟩ := h'.agents here
    obtain ⟨a, before, persists⟩ := h.agents between
    exact ⟨a, before, persists.trans persists'⟩
  retired left := by
    obtain ⟨b, between | between, persists'⟩ := h'.retired left
    · obtain ⟨a, before, persists⟩ := h.agents between
      exact ⟨a, .inl before, persists.trans persists'⟩
    · obtain ⟨a, before, persists⟩ := h.retired between
      exact ⟨a, before, persists.trans persists'⟩

theorem Evolves.keyed (h : c.Evolves c') (keyed : c.Keyed) : c'.Keyed := by
  intro id b here
  obtain ⟨a, before, persists⟩ := h.agents here
  exact persists.id.trans (keyed before)

theorem talks_nothing (c : Context) : c.Talks c [] := ⟨.refl c, rfl, .nil⟩

theorem Speaks.append (h : c.Speaks effects) (h' : c.Speaks more) : c.Speaks (effects ++ more) := by
  induction h with
  | nil => exact h'
  | notice kind own _ ih => exact .notice kind own ih
  | call here later has _ ih =>
    rw [List.append_assoc]
    exact .call here later has ih

/-- A message is routed alike as long as its agent is there. -/
theorem route_of_evolves (h : c.Evolves c') (same : c'.interaction = c.interaction) {b : Agent}
    {m : StatusMsg} (here : c'.agents.get? m.agent = some b) : c'.route m = c.route m := by
  obtain ⟨a, before, persists⟩ := h.agents here
  unfold route notice
  simp only [here, before, h.id, same, Option.map_some, Option.getD_some, persists.channel]

theorem passOn_of_evolves (h : c.Evolves c') (same : c'.interaction = c.interaction)
    {a b : Agent} (here : c'.agents.get? b.id = some a) (news : SessionNews) :
    c'.passOn (b.hear news).2 = c.passOn (b.hear news).2 := by
  unfold passOn
  rw [List.filterMap_map, List.filterMap_map]
  refine List.filterMap_congr fun m mem => ?_
  have there : c'.agents.get? m.agent = some a := by rw [Agent.agent_of_hear mem, here]
  show (c'.route m).toOption.map _ = (c.route m).toOption.map _
  rw [route_of_evolves h same there]

/-- Whatever is said in a context later on might have been said earlier. -/
theorem Speaks.preceded (h : c.Evolves c') (same : c'.interaction = c.interaction)
    (speaks : c'.Speaks effects) : c.Speaks effects := by
  induction speaks with
  | nil => exact .nil
  | notice kind own _ ih => exact .notice kind (own.trans h.id) ih
  | call here later has _ ih =>
    obtain ⟨a, before, persists⟩ := h.agents here
    simp only [passOn_of_evolves h same here]
    exact .call before (persists.trans later) has ih

theorem Talks.trans {d : Context} (h : c.Talks c' effects) (h' : c'.Talks d more) :
    c.Talks d (effects ++ more) where
  evolves := h.evolves.trans h'.evolves
  interaction := h'.interaction.trans h.interaction
  speaks := h.speaks.append (h'.speaks.preceded h.evolves h.interaction)

/-! ### Speaking to agents -/

/-- Whatever is seen of a message is the event that it becomes. -/
theorem effectOf?_report {m : StatusMsg} {effect : Effect}
    (seen : c.effectOf? (.report m) = some effect) : ∃ e, c.route m = .ok e ∧ effect = .post e := by
  change (c.route m).toOption.map Effect.post = some effect at seen
  cases routed : c.route m with
  | error fault =>
    rw [routed] at seen
    cases seen
  | ok e =>
    rw [routed] at seen
    exact ⟨e, rfl, (Option.some.inj seen).symm⟩

/-- Messages about several pieces of news are passed on one after another. -/
theorem passOn_flatMap (c : Context) (a : Agent) (news : List SessionNews) :
    c.passOn (news.flatMap fun n => (a.hear n).2)
      = news.flatMap fun n => c.passOn (a.hear n).2 := by
  unfold passOn
  rw [List.map_flatMap, List.filterMap_flatMap]

/-- What an agent does is seen as what its context says. -/
theorem speaks_effects {a : Agent} {acts : List AgentAct} (here : c.agents.get? a.id = some a)
    (speaks : a.Speaks acts) : c.Speaks (acts.filterMap c.effectOf?) := by
  induction speaks with
  | nil => exact .nil
  | @fault m rest kind _ ih =>
    cases seen : c.effectOf? (.report m) with
    | none =>
      rw [List.filterMap_cons_none seen]
      exact ih
    | some effect =>
      obtain ⟨e, routed, rfl⟩ := effectOf?_report seen
      rw [List.filterMap_cons_some seen]
      exact .notice (.inr ((kind_of_route routed).trans kind)) (src_of_route routed) ih
  | @call b s k rest later has _ ih =>
    have said : c.Speaks (.call s k ::
        c.passOn ((s.call k).1.news.flatMap fun n => (b.hear n).2)
          ++ rest.filterMap c.effectOf?) := by
      rw [passOn_flatMap]
      exact .call (later.id ▸ here) later has ih
    rw [List.filterMap_append]
    exact said

/-- An agent is written back after something was done to it. -/
theorem evolves_put {id : Id} {a b : Agent} (here : c.agents.get? id = some a)
    (persists : a.Persists b) : c.Evolves { c with agents := c.agents.put id b } where
  id := rfl
  agents there := by
    rcases Table.get?_put_cases there with ⟨rfl, rfl⟩ | before
    · exact ⟨a, here, persists⟩
    · exact ⟨_, before, .refl _⟩
  retired left := ⟨_, .inr left, .refl _⟩

theorem talks_tell (keyed : c.Keyed) (id : Id) {act : Agent → AgentTurn}
    (each : ∀ a : Agent, a.Talks (act a)) :
    c.Talks (c.tell id act).context (c.tell id act).effects := by
  unfold tell
  split
  · exact c.talks_nothing
  · rename_i a here
    have own : c.agents.get? a.id = some a := by rw [keyed here, here]
    exact ⟨evolves_put here (each a).persists, rfl, speaks_effects own (each a).speaks⟩

theorem talks_tellAll (keyed : c.Keyed) (ids : List Id) {act : Agent → AgentTurn}
    (each : ∀ a : Agent, a.Talks (act a)) :
    c.Talks (c.tellAll act ids).context (c.tellAll act ids).effects := by
  induction ids generalizing c with
  | nil => exact c.talks_nothing
  | cons id rest ih =>
    have first := talks_tell keyed id each
    exact first.trans (ih (first.evolves.keyed keyed))

/-- What an agent that has left hears is passed on, if anybody listens. -/
theorem effects_tellRetired {id : Id} {a : Agent} (left : c.retired.get? id = some a) (heard : Bool)
    (news : SessionNews) : (c.tellRetired id heard (·.overhear news)).effects
      = if heard then c.passOn (a.hear news).2 else [] := by
  have kept : ∀ (p : AgentAct → Bool) (msgs : List StatusMsg), (∀ m, p (.report m) = heard) →
      (msgs.map .report).filter p = if heard then msgs.map .report else [] := by
    intro p msgs same
    cases heard with
    | true => exact List.filter_eq_self.2 (List.forall_mem_map.2 fun m _ => same m)
    | false =>
      refine List.filter_eq_nil_iff.2 (List.forall_mem_map.2 fun m _ => ?_)
      rw [same]
      exact Bool.false_ne_true
  unfold tellRetired
  rw [left]
  show (List.filter _ ((a.hear news).2.map .report)).filterMap c.effectOf? = _
  rw [kept _ _ fun _ => rfl]
  cases heard <;> rfl

/-! ### Events -/

theorem talks_destroyAgent (keyed : c.Keyed) (e : Event) :
    c.Talks (c.destroyAgent e).context (c.destroyAgent e).effects := by
  have each := fun a : Agent => a.talks_handle e
  unfold destroyAgent
  split
  · exact c.talks_nothing
  · split
    · exact c.talks_nothing
    · rename_i id _ _ a here
      split
      · exact talks_tellAll keyed _ each
      · have marks : c.Talks (c.mark id a) [] :=
          ⟨evolves_put here (Agent.persists_of_same rfl rfl), rfl, .nil⟩
        exact marks.trans (talks_tellAll (marks.evolves.keyed keyed) _ each)

theorem talks_settleSink (keyed : c.Keyed) (sink : Id) :
    c.Talks (c.settleSink sink).context (c.settleSink sink).effects := by
  unfold settleSink
  split
  · exact c.talks_nothing
  · split
    · exact talks_tellAll keyed _ fun a => a.talks_handle _
    · exact c.talks_nothing

/-- An agent leaves. -/
theorem evolves_retire {id : Id} {a : Agent} (here : c.agents.get? id = some a) :
    c.Evolves (c.retire id a) where
  id := rfl
  agents there := ⟨_, Table.get?_of_get?_erase there, .refl _⟩
  retired left := by
    rcases Table.get?_put_cases left with ⟨rfl, rfl⟩ | before
    · exact ⟨_, .inl here, .refl _⟩
    · exact ⟨_, .inr before, .refl _⟩

theorem talks_afterLeave (keyed : c.Keyed) {id : Id} {a : Agent}
    (here : c.agents.get? id = some a) :
    c.Talks (c.afterLeave id a).context (c.afterLeave id a).effects := by
  have leaves : c.Talks (c.retire id a) [] := ⟨evolves_retire here, rfl, .nil⟩
  unfold afterLeave
  split
  · exact leaves.trans (talks_settleSink (leaves.evolves.keyed keyed) _)
  · exact leaves

theorem talks_agentDestroyed (keyed : c.Keyed) (e : Event) :
    c.Talks (c.agentDestroyed e).context (c.agentDestroyed e).effects := by
  cases leaver : c.leaver? e with
  | none =>
    obtain ⟨same, silent, _⟩ := agentDestroyed_of_leaver?_eq_none leaver
    rw [same, silent]
    exact c.talks_nothing
  | some a =>
    obtain ⟨id, named, here, _⟩ := leaver?_eq_some.1 leaver
    obtain ⟨same, effects, _⟩ := agentDestroyed_of_leaver? named leaver
    have tells : (c.afterLeave id a).context.Talks (c.afterLeave id a).context
        [.post ((c.afterLeave id a).context.goneNotice a)] :=
      ⟨.refl _, rfl, .notice (.inl rfl) rfl .nil⟩
    rw [same, effects]
    exact (talks_afterLeave keyed here).trans tells

theorem talks_distribute (keyed : c.Keyed) (e : Event) :
    c.Talks (c.distribute e).context (c.distribute e).effects := by
  unfold distribute
  split
  · exact c.talks_nothing
  · exact talks_tell keyed _ fun a => a.talks_handle e

/-- **What is said while a context carries an event out.** -/
theorem talks_carryOut (keyed : c.Keyed) (e : Event) :
    c.Talks (c.carryOut e).context (c.carryOut e).effects := by
  unfold carryOut
  split
  · exact talks_destroyAgent keyed e
  · exact talks_destroyAgent keyed e
  · exact talks_agentDestroyed keyed e
  · exact talks_distribute keyed e

theorem evolves_receive {e : Event} (received : c.receive e = .ok c') : c.Evolves c' := by
  obtain ⟨-, rfl⟩ := receive_eq_ok_iff.1 received
  exact ⟨rfl, (Evolves.refl c).agents, (Evolves.refl c).retired⟩

/-! ### Whatever is said -/

/-- No session is called when messages are passed on. -/
theorem post_of_passOn {msgs : List StatusMsg} {effect : Effect} (mem : effect ∈ c.passOn msgs) :
    ∃ m ∈ msgs, ∃ e, c.route m = .ok e ∧ effect = .post e := by
  obtain ⟨act, isAct, seen⟩ := List.mem_filterMap.1 mem
  obtain ⟨m, said, rfl⟩ := List.mem_map.1 isAct
  exact ⟨m, said, effectOf?_report seen⟩

/-- What follows a call: what the session says meanwhile is passed on at once. -/
theorem Speaks.after_call {s : Session} {k : SessionCall} {earlier later : List Effect}
    (h : c.Speaks effects) (split : effects = earlier ++ .call s k :: later) :
    ∃ a b rest, c.agents.get? b.id = some a ∧ a.Persists b ∧ b.session = some s ∧
      later = (s.call k).1.news.flatMap (fun n => c.passOn (b.hear n).2) ++ rest ∧
      c.Speaks rest := by
  induction h generalizing earlier with
  | nil => cases (List.append_eq_nil_iff.1 split.symm).2
  | notice _ _ _ ih =>
    cases earlier with
    | nil => cases split
    | cons _ earlier => exact ih (List.cons.inj split).2
  | @call a b r j rest here persists has speaks ih =>
    cases earlier with
    | nil =>
      obtain ⟨same, follows⟩ := List.cons.inj split
      obtain ⟨rfl, rfl⟩ := Effect.call.inj same
      exact ⟨a, b, rest, here, persists, has, follows.symm, speaks⟩
    | cons _ earlier =>
      -- nothing of what is passed on is a call, so the call comes after all of it
      rcases List.append_eq_append_iff.1 (List.cons.inj split).2 with
        ⟨more, _, follows⟩ | ⟨more, said, follows⟩
      · exact ih follows
      · cases more with
        | nil => exact ih (show rest = [] ++ .call s k :: later from follows.symm)
        | cons first more =>
          obtain ⟨rfl, _⟩ := List.cons.inj follows
          have mem : .call s k ∈ (r.call j).1.news.flatMap fun n => c.passOn (b.hear n).2 :=
            said ▸ List.mem_append_right _ (List.mem_cons_self ..)
          obtain ⟨_, _, passed⟩ := List.mem_flatMap.1 mem
          obtain ⟨_, _, _, _, isPost⟩ := post_of_passOn passed
          cases isPost

/-- The event `e` tells what a session has said when it was called. -/
def Quotes (c : Context) (effects : List Effect) (e : Event) : Prop :=
  ∃ a b s k news, c.agents.get? b.id = some a ∧ a.Persists b ∧ .call s k ∈ effects ∧
    news ∈ (s.call k).1.news ∧ .post e ∈ c.passOn (b.hear news).2

theorem Quotes.mono {e : Event} (h : c.Quotes effects e) (sub : effects ⊆ more) :
    c.Quotes more e := by
  obtain ⟨a, b, s, k, news, here, persists, called, rest⟩ := h
  exact ⟨a, b, s, k, news, here, persists, sub called, rest⟩

/-- What is sent on its way: notices, and what sessions have said when they were called. -/
theorem Speaks.of_post {e : Event} (h : c.Speaks effects) (mem : .post e ∈ effects) :
    (e.kind = .noticeDestroyed ∨ e.kind = .noticeError) ∨ c.Quotes effects e := by
  induction h with
  | nil => cases mem
  | notice kind _ _ ih =>
    rcases List.mem_cons.1 mem with same | later
    · obtain rfl := Effect.post.inj same
      exact .inl kind
    · exact (ih later).imp_right fun quotes => quotes.mono (List.subset_cons_self ..)
  | @call a b s k rest here persists has _ ih =>
    rcases List.mem_append.1 mem with now | later
    · rcases List.mem_cons.1 now with same | passed
      · cases same
      · obtain ⟨news, said, posted⟩ := List.mem_flatMap.1 passed
        exact .inr ⟨a, b, s, k, news, here, persists, List.mem_cons_self .., said, posted⟩
    · exact (ih later).imp_right fun quotes => quotes.mono (List.subset_append_right ..)

/-- Whatever a context sends on its way bears its own identity. -/
theorem Speaks.src_of_post {e : Event} (h : c.Speaks effects) (mem : .post e ∈ effects) :
    e.src = c.id := by
  induction h with
  | nil => cases mem
  | notice _ own _ ih =>
    rcases List.mem_cons.1 mem with same | later
    · obtain rfl := Effect.post.inj same
      exact own
    · exact ih later
  | call _ _ _ _ ih =>
    rcases List.mem_append.1 mem with now | later
    · rcases List.mem_cons.1 now with same | passed
      · cases same
      · obtain ⟨_, _, posted⟩ := List.mem_flatMap.1 passed
        obtain ⟨_, _, _, routed, same⟩ := post_of_passOn posted
        obtain rfl := Effect.post.inj same
        exact src_of_route routed
    · exact ih later

/-- Only sessions of agents of the context are called. -/
theorem Speaks.of_call {s : Session} {k : SessionCall} (h : c.Speaks effects)
    (mem : .call s k ∈ effects) :
    ∃ a b, c.agents.get? b.id = some a ∧ a.Persists b ∧ b.session = some s := by
  obtain ⟨earlier, later, split⟩ := List.append_of_mem mem
  obtain ⟨a, b, _, here, persists, has, _⟩ := h.after_call split
  exact ⟨a, b, here, persists, has⟩

end Context

end CastHub
