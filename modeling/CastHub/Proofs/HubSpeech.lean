import CastHub.Proofs.Speech
/-!
# What is said at a hub

Of all that can happen to a hub, only two things make anybody speak: an event for a context that the
hub holds, and news that a session gives unasked. In the first case the context that the event is
addressed to speaks, and no other; in the second the agent that the news is for
(`Hub.Fit.says_perform`). While an agent is made nothing is said.
-/

namespace CastHub

/-- Nothing is said; at most the audio routing is given back. -/
structure Mute (effects : List Effect) : Prop where
  only : ∀ effect ∈ effects, effect = .resetAudio

theorem mute_nil : Mute [] := ⟨fun _ mem => nomatch mem⟩

theorem Mute.append {effects more : List Effect} (h : Mute effects) (h' : Mute more) :
    Mute (effects ++ more) := ⟨List.forall_mem_append.2 ⟨h.only, h'.only⟩⟩

/-- The context that an act is addressed to. -/
def Act.addressee? : Act → Option Id
  | .event e => some e.dst
  | .contextEvent x _ => some x
  | _ => none

namespace Hub

/-- What is said at a hub when an act takes place. -/
inductive Says (hub : Hub) (act : Act) (effects : List Effect) : Prop
  | nothing (mute : Mute effects)
  /-- The context that the act is addressed to sees to an event, and perhaps it is closed then. -/
  | spoken (x : Id) (c d : Context) (said rest : List Effect) (addressed : act.addressee? = some x)
      (held : hub.contexts.get? x = some c) (id : d.id = x) (agents : d.agents = c.agents)
      (speaks : d.Speaks said) (mute : Mute rest) (all : effects = said ++ rest)
  /-- An agent passes news on that its session gives unasked. -/
  | passed (x id : Id) (news : SessionNews) (c : Context) (a : Agent)
      (isNews : act = .news x id news) (there : hub.context? x = some c)
      (here : c.agents.get? id = some a ∨ c.retired.get? id = some a)
      (said : effects = c.passOn (a.hear news).2)

variable {hub : Hub}

theorem mute_closeContext (hub : Hub) (x : Id) : Mute (hub.closeContext x).2 := by
  unfold closeContext
  split
  · exact mute_nil
  · show Mute (if _ then _ else _)
    split
    · exact ⟨fun _ mem => List.mem_singleton.1 mem⟩
    · exact mute_nil

theorem mute_closeIfEmpty (hub : Hub) (x : Id) : Mute (hub.closeIfEmpty x).2 := by
  rcases hub.closeIfEmpty_cases x with same | ⟨_, _, _, closes⟩
  · rw [same]
    exact mute_nil
  · rw [closes]
    exact hub.mute_closeContext x

theorem mute_conclude (hub : Hub) (x : Id) (origin : Origin) (result : Except Fault Id) :
    Mute (hub.conclude x origin result).effects := by
  obtain ⟨outcome, _, same | ⟨_, closes⟩⟩ := hub.conclude_cases x origin result
  · rw [same]
    exact mute_nil
  · rw [closes]
    exact hub.mute_closeContext x

theorem mute_begin (hub : Hub) (c : Context) (msg : ContextMsg) (origin : Origin) :
    Mute (hub.begin c msg origin).effects := by
  cases hub.begin_cases c msg origin with
  | fails ids fault comes used =>
    rw [comes]
    exact mute_conclude ..
  | waits blank id ids session sessions new minted known comes =>
    rw [comes]
    exact mute_nil

theorem mute_enlist (hub : Hub) (x : Id) (a : Agent) (origin : Origin) :
    Mute (hub.enlist x a origin).effects := by
  cases hub.enlist_cases x a origin with
  | fails fault comes =>
    rw [comes]
    exact mute_conclude ..
  | joins c c' there published comes =>
    rw [comes]
    exact mute_conclude ..

theorem mute_built {t : HubTurn} (built : hub.built = some t) : Mute t.effects := by
  cases built_cases built with
  | joins x a session origin rest latest source comes =>
    rw [comes]
    exact mute_enlist ..
  | waits x a session origin rest latest isSink comes =>
    rw [comes]
    exact mute_nil

theorem mute_answered {answer : Except Fault Event} {t : HubTurn}
    (answered : hub.answered answer = some t) : Mute t.effects := by
  cases answered_cases answered with
  | fails x a origin rest fault latest comes =>
    rw [comes]
    exact mute_conclude ..
  | joins x a origin rest channel latest assigned comes =>
    rw [comes]
    exact mute_enlist ..

theorem mute_createAgent (hub : Hub) (e : Event) : Mute (hub.createAgent e).effects := by
  cases hub.createAgent_cases e with
  | refused fault comes =>
    rw [comes]
    exact mute_nil
  | shut c fresh hub' fault found comes =>
    rw [comes]
    exact mute_nil
  | begins msg c c' fresh hub' asked room found received comes =>
    rw [comes]
    exact mute_begin ..

/-- Agents stand under their own identities. -/
theorem Fit.keyed (h : hub.Fit) {x : Id} {c : Context} (there : hub.context? x = some c) :
    c.Keyed := by
  intro id a here
  exact ((h.orderly.filed (holds_of_context? there)).keyed (Context.member_of_agent here)).1

/-- A context has taken an event in, and its agents are what they were. -/
theorem Fit.spoken (h : hub.Fit) {act : Act} {x : Id} {c d : Context} {e : Event}
    {said rest : List Effect} (addressed : act.addressee? = some x)
    (held : hub.contexts.get? x = some c) (received : c.receive e = .ok d)
    (speaks : d.Keyed → d.Speaks said) (mute : Mute rest) : hub.Says act (said ++ rest) := by
  have same := agents_of_receive received
  have isX : d.id = x := (Context.roster_receive received).2.id.trans (h.tidy.held held).1
  refine .spoken x c d said rest addressed held isX same (speaks ?_) mute rfl
  intro id a here
  rw [same] at here
  exact h.keyed (context?_of_held held) here

theorem Fit.says_deliver (h : hub.Fit) {act : Act} {x : Id} {c : Context} (e : Event)
    (addressed : act.addressee? = some x) (there : hub.context? x = some c) :
    hub.Says act (hub.deliver c e).effects := by
  cases hub.deliver_cases c e with
  | refused fault refuses comes =>
    rw [comes]
    exact .nothing mute_nil
  | unclear d received asks comes =>
    rw [comes]
    exact .nothing mute_nil
  | begins d msg received asks asked comes =>
    rw [comes]
    exact .nothing (mute_begin ..)
  | carries d received other comes =>
    have spoken := h.spoken addressed (h.held_of_receive there received) received
      (fun keyed => (Context.talks_carryOut keyed e).speaks) mute_nil
    rw [List.append_nil] at spoken
    rw [comes]
    exact spoken

theorem Fit.says_handle (h : hub.Fit) (e : Event) : hub.Says (.event e) (hub.handle e).effects := by
  cases hub.handle_cases e with
  | configures kind comes => rw [comes]; exact .nothing mute_nil
  | full fault kind comes => rw [comes]; exact .nothing mute_nil
  | opens c hub' kind opened comes => rw [comes]; exact .nothing mute_nil
  | creates kind comes => rw [comes]; exact .nothing (hub.mute_createAgent e)
  | dropped notAgent notChannel missing comes => rw [comes]; exact .nothing mute_nil
  | delivers c notAgent notChannel held comes =>
    rw [comes]
    exact h.says_deliver e rfl (context?_of_held held)
  | ends kind comes =>
    rw [comes]
    cases hub.channelDestroyed_cases e with
    | dropped missing ends => rw [ends]; exact .nothing mute_nil
    | refused c fault held refuses ends => rw [ends]; exact .nothing (hub.mute_closeIfEmpty c.id)
    | ends c d held received ends =>
      rw [ends]
      exact h.spoken rfl held received
        (fun keyed => (Context.talks_agentDestroyed keyed e).speaks) (mute_closeIfEmpty ..)

theorem says_overhear (hub : Hub) (x id : Id) (news : SessionNews) :
    hub.Says (.news x id news) (hub.overhear x id news).effects := by
  unfold Hub.overhear
  split
  · exact .nothing mute_nil
  · rename_i c there
    split
    · show hub.Says _ (c.tell id (·.overhear news)).effects
      unfold Context.tell
      split
      · exact .nothing mute_nil
      · rename_i a here
        exact .passed x id news c a rfl there (.inl here) rfl
    · split
      · show hub.Says _ (c.tellRetired id (hub.reaches x) (·.overhear news)).effects
        cases left : c.retired.get? id with
        | none =>
          unfold Context.tellRetired
          rw [left]
          exact .nothing mute_nil
        | some a =>
          rw [Context.effects_tellRetired left]
          split
          · exact .passed x id news c a rfl there (.inr left) rfl
          · exact .nothing mute_nil
      · exact .nothing mute_nil

/-- **What is said when an act takes place.** -/
theorem Fit.says_perform (h : hub.Fit) (act : Act) : hub.Says act (hub.perform act).effects := by
  cases hub.perform_cases act with
  | handles e => exact h.says_handle e
  | lost x e missing comes => exact comes ▸ .nothing mute_nil
  | delivers x e c there comes => exact comes ▸ h.says_deliver e rfl there
  | unbuilt comes => exact comes ▸ .nothing mute_nil
  | builds t made comes => exact comes ▸ .nothing (mute_built made)
  | unanswered answer comes => exact comes ▸ .nothing mute_nil
  | answers answer t made comes => exact comes ▸ .nothing (mute_answered made)
  | overhears x id news => exact hub.says_overhear x id news
  | registers className cls => exact .nothing mute_nil
  | starts config => exact .nothing mute_nil
  | closes x => exact .nothing (hub.mute_closeContext x)

end Hub

end CastHub
