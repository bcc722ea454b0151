import CastHub.Client.Request
import CastHub.MediaChannel
import CastHub.Proofs.Closing
import CastHub.Proofs.Recipients
/-!
# How long contexts live

A context may be held though nobody is in it. But nobody has ever been in such a one, as long as all
goes its ordinary way (`Act.IsOrdinary`): in a context in which anybody is there is a sink, a sink
goes only when its media channel does, and when a channel has gone the hub looks whether anybody is
left.

* `Hub.Harmless` : an event that takes no sink away from its context behind the hub's back;
* `Hub.Sound.harmless_of_posted` : whatever contexts send on its way is harmless;
* `Hub.Sound.stays_peopled` : one act leaves no context empty in which somebody was;
* `Hub.contexts_live_as_long_as_agents` : whole histories.
-/

namespace CastHub

namespace Hub

variable {hub : Hub}

/-! ## The ordinary way -/

/-- An event takes no sink away from its context: if it tells the context that an agent has finished
destroying, it names one whose number is among those that have been handed out, which is not in the
making and, if it is there, is a source. -/
structure Harmless (hub : Hub) (past : List Id) (e : Event) : Prop where
  named : e.kind = .contextAgentDestroyed → ∀ {id}, e.agent? = some id →
    id ∈ past ∧ ¬ hub.population.Expects e.dst id ∧
      ∀ {c a}, hub.context? e.dst = some c → c.agents.get? id = some a → a.role = .source

theorem harmless_of_ne {past : List Id} {e : Event} (other : e.kind ≠ .contextAgentDestroyed) :
    hub.Harmless past e := ⟨fun kind => absurd kind other⟩

/-- An event remains harmless, as long as no number is handed out again. -/
theorem Fit.harmless_perform (h : hub.Fit) {past : List Id} {e : Event}
    (harmless : hub.Harmless past e) {act : Act}
    (new : ∀ id ∈ (hub.moment act).minted, id ∉ past) :
    (hub.perform act).hub.Harmless (past ++ (hub.moment act).minted) e where
  named kind id names := by
    obtain ⟨used, unexpected, source⟩ := harmless.named kind names
    refine ⟨List.mem_append_left _ used, fun expects => ?_, fun later here => ?_⟩
    · rcases h.expects_perform act expects with before | now
      · exact unexpected before
      · exact new id now used
    · obtain ⟨c, a, there, before, persists⟩ := h.persists_perform unexpected act later here
      exact persists.role.trans (source there before)

/-- Of all that an agent reports when its session gives no news of its own, only the end of a source
is for its context, and it names the source. -/
theorem source_of_hear {c : Context} {b : Agent} {news : SessionNews}
    (isOpen : news.isPrivate = false) {m : StatusMsg} (reported : m ∈ (b.hear news).2) {e : Event}
    (routed : c.route m = .ok e) (kind : e.kind = .contextAgentDestroyed) :
    b.role = .source ∧ e.agent? = some b.id ∧ e.dst = c.id := by
  have kind : m.kind = .contextAgentDestroyed := (Context.kind_of_route routed).symm.trans kind
  have done : m ∉ b.stepDone.2 := fun mem => by
    rw [Agent.kind_of_stepDone mem] at kind
    cases kind
  cases news with
  | prosumer change =>
    rw [@Agent.kind_of_reports m (b.statusMsg .mediaChannel (.changeMedia b.role change)) reported]
      at kind
    cases kind
  | destroyed =>
    change m ∈ Agent.reports b.farewell at reported
    rw [Agent.reports_farewell] at reported
    obtain rfl := List.mem_singleton.1 reported
    unfold Agent.farewell at kind routed
    cases role : b.role with
    | sink =>
      rw [role] at kind
      cases kind
    | source =>
      rw [role] at routed
      obtain rfl := Except.ok.inj routed
      exact ⟨rfl, rfl, rfl⟩
  | interrupted => cases reported
  | error fault =>
    change m ∈ (b.hearFault fault).2 at reported
    rw [Agent.kind_of_hearFault reported] at kind
    cases kind
  | privateNews target kind detail => cases isOpen
  | _ => exact absurd reported done

/-- Whatever an agent's messages become is harmless, as long as its session gives no news of its
own. -/
theorem Sound.harmless_of_hear (h : hub.Sound) {past : List Id} (remembers : hub.Remembers past)
    {x : Id} {c d : Context} {a b : Agent} (there : hub.context? x = some c) (id : d.id = x)
    (found : c.agents.get? b.id = some a ∨ c.retired.get? b.id = some a) (persists : a.Persists b)
    {news : SessionNews} (isOpen : news.isPrivate = false) {e : Event}
    (passed : .post e ∈ d.passOn (b.hear news).2) : hub.Harmless past e where
  named kind names names' := by
    obtain ⟨m, reported, _, routed, same⟩ := Context.post_of_passOn passed
    obtain rfl := Effect.post.inj same
    obtain ⟨source, isB, dst⟩ := source_of_hear isOpen reported routed kind
    obtain rfl := Option.some.inj (isB.symm.trans names')
    obtain ⟨unexpected, _, role⟩ := h.remembered remembers there found
    rw [dst, id]
    refine ⟨remembers.used there found, unexpected, fun there' here => ?_⟩
    obtain rfl := Option.some.inj (there.symm.trans there')
    exact (role here).trans (persists.role.symm.trans source)

/-- **Whatever is sent on its way is harmless**, as long as sessions give no news of their own. -/
theorem Sound.harmless_of_posted (h : hub.Sound) {past : List Id} (remembers : hub.Remembers past)
    {act : Act} (discreet : (hub.moment act).Discreet) {e : Event}
    (mem : .post e ∈ (hub.perform act).effects) : hub.Harmless past e := by
  have loud : ∀ {quiet : List Effect}, Mute quiet → .post e ∉ quiet := fun mute mem => by
    cases mute.only _ mem
  cases h.says_perform act with
  | nothing mute => exact absurd mem (loud mute)
  | spoken x c d said rest addressed held id agents speaks mute all =>
    rw [all] at mem
    have mem := (List.mem_append.1 mem).resolve_right (loud mute)
    rcases speaks.of_post mem with kind | ⟨a, b, s, k, news, here, persists, called, heard, passed⟩
    · refine harmless_of_ne fun kind' => ?_
      rw [kind'] at kind
      rcases kind with kind | kind <;> cases kind
    · rw [agents] at here
      have isOpen : news.isPrivate = false := by
        have isDiscreet := discreet.called (.call s k) (all ▸ List.mem_append_left _ called)
        simpa using List.all_eq_true.1 isDiscreet news heard
      exact h.harmless_of_hear remembers (context?_of_held held) id (.inl here) persists isOpen
        passed
  | passed x id news c a isNews there here said =>
    subst isNews
    obtain ⟨_, keyed, _⟩ := h.remembered remembers there here
    rw [said] at mem
    rw [← keyed] at here
    exact h.harmless_of_hear remembers there (h.tidy.id there) here (.refl a) discreet.unasked mem

/-! ### Nobody's context is left behind -/

/-- Once a channel has gone, a context that is still held is not empty. -/
theorem isEmpty_closeIfEmpty {x : Id} {c : Context}
    (later : (hub.closeIfEmpty x).1.contexts.get? x = some c) : c.isEmpty = false := by
  unfold closeIfEmpty at later
  split at later
  · rw [get?_closeContext] at later
    cases later
  · rename_i peopled
    change hub.contexts.get? x = some c at later
    rw [later] at peopled
    exact Bool.eq_false_iff.2 peopled

theorem Fit.isEmpty_channelDestroyed (h : hub.Fit) {e : Event} {c : Context}
    (later : (hub.channelDestroyed e).hub.contexts.get? e.dst = some c) : c.isEmpty = false := by
  cases hub.channelDestroyed_cases e with
  | dropped missing comes =>
    rw [comes, missing] at later
    cases later
  | refused d fault held refuses comes =>
    rw [comes] at later
    exact isEmpty_closeIfEmpty ((h.tidy.held held).1 ▸ later)
  | ends d d' held received comes =>
    have isX : d'.id = e.dst := (Context.roster_receive received).2.id.trans (h.tidy.held held).1
    rw [comes] at later
    exact isEmpty_closeIfEmpty (isX ▸ later)

end Hub

theorem MediaChannel.kind_of_hear {q e : Event} (reply : MediaChannel.hear q = some e) :
    e.kind ≠ .contextAgentDestroyed := by
  unfold MediaChannel.hear at reply
  split at reply
  · cases reply
  · exact Option.some.inj reply ▸ EventKind.noConfusion
  · exact Option.some.inj reply ▸ EventKind.noConfusion
  · cases reply

namespace Act

/-- An act that takes no sink away from its context but by the end of its channel. -/
inductive IsTame (hub : Hub) (act : Act) : Prop
  | event (past : List Id) (e : Event) (isEvent : act = .event e)
      (harmless : hub.Harmless past e)
  | other (unmakes : act.unmakes? = none) (releases : act.releases = false)

/-- An act that takes the ordinary way, when the events `sent` have been sent by contexts: the hub
is sent a client's request, one of these events, or what a loopback media channel says to one of
them; somebody comes who is waited for; a session speaks up; or the hub is set up. -/
inductive IsOrdinary (sent : List Event) : Act → Prop
  | asked {request : Request} {client : Id} {e : Event}
      (carries : request.toEvent client = .ok e) : IsOrdinary sent (.event e)
  | dispatched {e : Event} (mem : e ∈ sent) : IsOrdinary sent (.event e)
  | replied {q e : Event} (mem : q ∈ sent) (reply : MediaChannel.hear q = some e) :
      IsOrdinary sent (.event e)
  | built : IsOrdinary sent .built
  | answered (answer : Except Fault Event) : IsOrdinary sent (.answered answer)
  | news (context agent : Id) (news : SessionNews) : IsOrdinary sent (.news context agent news)
  | register (className : String) (cls : SessionClass) : IsOrdinary sent (.register className cls)
  | init (config : Config) : IsOrdinary sent (.init config)

theorem IsOrdinary.isTame {sent : List Event} {act : Act} (ordinary : act.IsOrdinary sent)
    {hub : Hub} {past : List Id} (harmless : ∀ e ∈ sent, hub.Harmless past e) :
    act.IsTame hub := by
  cases ordinary with
  | asked carries =>
    exact .event past _ rfl (Hub.harmless_of_ne (Request.kind_of_toEvent carries).1)
  | dispatched mem => exact .event past _ rfl (harmless _ mem)
  | replied mem reply =>
    exact .event past _ rfl (Hub.harmless_of_ne (MediaChannel.kind_of_hear reply))
  | built => exact .other rfl rfl
  | answered answer => exact .other rfl rfl
  | news context agent news => exact .other rfl rfl
  | register className cls => exact .other rfl rfl
  | init config => exact .other rfl rfl

/-- A client asks for a sink in a context of its own, has it destroyed when it is there, and opens a
context when its channel has gone. -/
def visit : List Act :=
  [ .event
      { kind := .createAgent, sender := .interaction, target := .hub, src := 1,
        payload := .context
          { ContextMsg.create Loopback.className .sink with interaction := 1 } },
    built, grant 7,
    .event
      { kind := .contextDestroyAgent, sender := .interaction, target := .hub, src := 1, dst := 1,
        payload := .agent { agent := 2 } },
    .event
      { kind := .channelDestroyed, sender := .mediaChannel, target := .hub, src := 7, dst := 1,
        payload := .channel ⟨2, 7, 2, none⟩ },
    .event
      { kind := .createContext, sender := .interaction, target := .hub, src := 1,
        payload := .empty } ]

end Act

namespace Hub

variable {hub : Hub}

/-- **A context is not left empty**: if somebody was in it and it is still held, somebody is in it,
as long as no live number is met again. -/
theorem Sound.stays_peopled (h : hub.Sound) {act : Act} (tame : act.IsTame hub)
    (spares : (hub.moment act).Spares) {x : Id} {c c' : Context}
    (held : hub.contexts.get? x = some c) (peopled : c.agents ≠ [])
    (later : (hub.perform act).hub.contexts.get? x = some c') : c'.agents ≠ [] := by
  have keeps : act.releases = false := by
    cases tame with
    | event past e isEvent => rw [isEvent]; rfl
    | other _ releases => exact releases
  have someone : c.roster ≠ [] := fun nobody => peopled (List.map_eq_nil_iff.1 nobody)
  obtain ⟨id, s, here, isSink⟩ := (h.attached (context?_of_held held)).exists_sink someone
  obtain ⟨a, agent, rfl⟩ := Context.agent_of_member here
  have holds : hub.holds x id = true := by
    rw [holds_of_held held, Table.has, agent]
    rfl
  rcases h.stays_or_leaves keeps spares holds with still | removed
  · rw [holds_of_held later] at still
    intro nobody
    rw [nobody] at still
    cases still
  · -- the sink has gone, so its channel has
    obtain ⟨unmakes, _⟩ := Option.filter_eq_some_iff.1 removed
    change act.unmakes? = some (x, id) at unmakes
    cases tame with
    | other none => rw [none] at unmakes; cases unmakes
    | event past e isEvent harmless =>
      subst isEvent
      cases Act.ends_of_unmakes unmakes with
      | channel kind dst names =>
        subst dst
        change (hub.handle e).hub.contexts.get? e.dst = some c' at later
        rw [handle_of_channelDestroyed hub kind] at later
        intro nobody
        have empty := h.isEmpty_channelDestroyed later
        rw [Context.isEmpty, nobody] at empty
        cases empty
      | agent kind dst names =>
        have source := (harmless.named kind names).2.2 (dst ▸ context?_of_held held) agent
        rw [show a.member.role = a.role from rfl, source] at isSink
        cases isSink

/-- All of several acts take the ordinary way, when the events `sent` have been sent before. -/
def GoesOrdinarily (hub : Hub) (sent : List Event) : List Act → Prop
  | [] => True
  | act :: rest =>
    act.IsOrdinary sent ∧
      (hub.perform act).hub.GoesOrdinarily (sent ++ posts (hub.perform act).effects) rest

/-- A hub in order, for which the numbers `past` have been handed out, and to which several acts are
to happen in the ordinary way, while no session gives news of its own and no number is handed out
again. -/
structure Placid (hub : Hub) (past : List Id) (sent : List Event) (acts : List Act) : Prop where
  sound : hub.Sound
  remembers : hub.Remembers past
  harmless : ∀ e ∈ sent, hub.Harmless past e
  ordinary : hub.GoesOrdinarily sent acts
  discreet : ∀ m ∈ hub.journal acts, m.Discreet
  used : ∀ {id}, hub.population.Uses id → id ∈ past
  once : (past ++ minted (hub.journal acts)).Nodup

/-- The numbers that are handed out by the first act are new. -/
theorem Placid.new {past : List Id} {sent : List Event} {act : Act} {rest : List Act}
    (h : hub.Placid past sent (act :: rest)) : ∀ id ∈ (hub.moment act).minted, id ∉ past :=
  fun id now before =>
    (List.nodup_append.1 h.once).2.2 id before id (List.mem_append_left _ now) rfl

/-- No live number is met again. -/
theorem Placid.spares {past : List Id} {sent : List Event} {act : Act} {rest : List Act}
    (h : hub.Placid past sent (act :: rest)) : (hub.moment act).Spares := fun id now =>
  Bool.eq_false_iff.2 fun live => h.new id now (h.used (h.sound.uses_of_isLive live))

theorem Placid.step {past : List Id} {sent : List Event} {act : Act} {rest : List Act}
    (h : hub.Placid past sent (act :: rest)) :
    (hub.perform act).hub.Placid (past ++ (hub.moment act).minted)
      (sent ++ posts (hub.perform act).effects) rest where
  sound := h.sound.perform h.spares
  remembers := h.sound.remembers_perform h.remembers h.new
  harmless e mem := by
    refine h.sound.harmless_perform ?_ h.new
    rcases List.mem_append.1 mem with before | now
    · exact h.harmless e before
    · obtain ⟨effect, among, isPost⟩ := List.mem_filterMap.1 now
      cases effect with
      | post e' =>
        obtain rfl := Option.some.inj isPost
        exact h.sound.harmless_of_posted h.remembers (h.discreet _ (List.mem_cons_self ..)) among
      | call s k => cases isPost
      | resetAudio => cases isPost
  ordinary := h.ordinary.2
  discreet m mem := h.discreet m (List.mem_cons_of_mem _ mem)
  used uses := by
    obtain ⟨cs, does⟩ := h.sound.toFit.perform act
    rw [does.minted]
    exact List.mem_append.2 ((h.sound.orderly.uses_run does.run uses).imp_left h.used)
  once := by
    rw [List.append_assoc]
    exact h.once

theorem Placid.after {past : List Id} {sent : List Event} {before rest : List Act}
    (h : hub.Placid past sent (before ++ rest)) :
    ∃ past' sent', (hub.after before).Placid past' sent' rest := by
  induction before generalizing hub past sent with
  | nil => exact ⟨past, sent, h⟩
  | cons act before ih => exact ih h.step

/-- A context in which somebody is is not empty later on, as long as it is held. -/
theorem Placid.stays_peopled {past : List Id} {sent : List Event} {acts : List Act}
    (h : hub.Placid past sent acts) {x : Id} {c c' : Context}
    (held : hub.contexts.get? x = some c) (peopled : c.agents ≠ [])
    (later : (hub.after acts).contexts.get? x = some c') : c'.agents ≠ [] := by
  induction acts generalizing hub past sent c with
  | nil =>
    obtain rfl := Option.some.inj (held.symm.trans later)
    exact peopled
  | cons act rest ih =>
    -- the number of a context that is held is not handed out again
    have once : x ∉ minted ((hub.perform act).hub.journal rest) := fun again =>
      (List.nodup_append.1 h.once).2.2 x (h.used (.context (roster_of_held held))) x
        (List.mem_append_right _ again) rfl
    obtain ⟨d, between, _⟩ := h.step.sound.held_after once later
    exact ih h.step between
      (h.sound.stays_peopled (h.ordinary.1.isTame h.harmless) h.spares held peopled between) later

/-- **Contexts live as long as their agents.** Whatever has happened to a hub:

* a context is held no longer, though nobody has released it, only because it was closed at a time
  when nobody was in it;
* as long as no live number has been met again, whoever is in a context that is held stays in it, or
  is removed, unless a context is released; so no context is lost with anybody in it;
* the audio routing has been given back as often as the hub has come to hold no context;
* as long as no number has been handed out twice, all goes its ordinary way, and no session gives
  news of its own, nobody has ever been in a context that is held and in which nobody is. -/
theorem contexts_live_as_long_as_agents {hub : Hub} (fresh : hub.IsFresh) (acts : List Act) :
    (∀ m ∈ hub.journal acts, m.act.releases = false → ∀ x,
      (m.before.opened m.act).contexts.has x = true → m.turn.hub.contexts.has x = false →
      ∃ (mid : Hub) (c : Context), m.turn.hub = (mid.closeContext x).1 ∧
        mid.contexts.get? x = some c ∧ c.agents = []) ∧
    ((∀ m ∈ hub.journal acts, m.Spares) → ∀ m ∈ hub.journal acts, m.act.releases = false →
      ∀ x id, m.before.holds x id = true →
        m.turn.hub.holds x id = true ∨ m.removal? = some (x, id)) ∧
    resets ((hub.journal acts).flatMap (·.turn.effects)) = hub.emptyings acts ∧
    ((minted (hub.journal acts)).Nodup → hub.GoesOrdinarily [] acts →
      (∀ m ∈ hub.journal acts, m.Discreet) → ∀ x c,
      (hub.after acts).contexts.get? x = some c → c.agents = [] →
      ∀ id a, ¬ hub.Publishes acts x id a) := by
  refine ⟨?_, ?_, fresh.fit.resets_journal acts, ?_⟩
  · intro m mem keeps x held missing
    obtain ⟨before, act, rest, rfl, rfl⟩ := mem_journal mem
    exact ((fresh.fit_after before).lapses_perform keeps).closing held missing
  · intro spares m mem keeps x id here
    obtain ⟨before, act, rest, rfl, rfl⟩ := mem_journal mem
    have sound : (hub.after before).Sound := fresh.sound_after fun m sooner =>
      spares m (journal_append .. ▸ List.mem_append_left _ sooner)
    exact sound.stays_or_leaves keeps (spares _ mem) here
  · rintro once ordinary discreet x c' later empty id a ⟨before, rest, c, split, held, here⟩
    subst split
    have placid : hub.Placid [] [] (before ++ rest) :=
      { sound := fresh.sound
        remembers := fresh.remembers
        harmless := by rintro _ ⟨⟩
        ordinary := ordinary
        discreet := discreet
        used := fun uses =>
          absurd uses (Population.not_uses_of_empty fresh.rosters fresh.arrivals _)
        once := once }
    obtain ⟨past, sent, rests⟩ := placid.after
    rw [after_append] at later
    refine rests.stays_peopled held (fun nobody => ?_) later empty
    rw [nobody] at here
    cases here

/-- So it is when a client has a sink made and destroyed, and then opens a context. -/
theorem contexts_live_as_long_as_agents_after_visit :
    resets ((loopback.journal Act.visit).flatMap (·.turn.effects)) = 1 ∧
      removals (loopback.journal Act.visit) = [(1, 2)] ∧
      (∀ m ∈ loopback.journal Act.visit, m.act.releases = false → ∀ x id,
        m.before.holds x id = true → m.turn.hub.holds x id = true ∨ m.removal? = some (x, id)) ∧
      ∃ c, (loopback.after Act.visit).contexts.get? 3 = some c ∧ c.agents = [] ∧
        ∀ id a, ¬ loopback.Publishes Act.visit 3 id a := by
  obtain ⟨_, stays, given, never⟩ := contexts_live_as_long_as_agents isFresh_loopback Act.visit
  have asks : ∀ (request : Request) {e : Event} (sent : List Event),
      request.toEvent 1 = .ok e → Act.IsOrdinary sent (.event e) := fun _ _ _ => .asked
  have ordinary : loopback.GoesOrdinarily [] Act.visit :=
    And.intro (asks (.createAgent none Loopback.className .sink none) _ rfl)
      (And.intro .built (And.intro (.answered _) (And.intro (asks (.destroyAgent 1 2) _ rfl)
        (And.intro (.replied (.head _) rfl) (And.intro (asks .createContext _ rfl) trivial)))))
  refine ⟨given.trans (by decide), by decide, stays (by decide), _, rfl, rfl, ?_⟩
  exact never (by decide) ordinary (by decide) 3 _ rfl rfl

end Hub

end CastHub
