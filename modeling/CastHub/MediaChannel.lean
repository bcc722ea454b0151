import CastHub.Event.Basic
/-!
# Loopback media channel

A media channel for hosts without a media pipeline: every channel that is asked for is granted, and
every change of a media object succeeds at once.
-/

namespace CastHub

/-- A loopback media channel: `next` is the channel that will be granted next. -/
structure MediaChannel where
  next : Id := 1

namespace MediaChannel

/-- An answer goes back to where an event came from. -/
def answer (e : Event) (kind : EventKind) (payload : Payload) : Event :=
  { kind, sender := .mediaChannel, target := .hub, src := e.dst, dst := e.src, payload }

/-- What the media channel says to an event. It has nothing to say about an event that names no
agent, or that is not for it. -/
def hear (e : Event) : Option Event :=
  match e.agent?, e.kind with
  | none, _ => none
  | some _, .destroyChannel => some (answer e .channelDestroyed e.payload)
  | some agent, .changeMedia _ change => some (answer e (.prosumerState change) (.agent { agent }))
  | some _, _ => none

/-- Answers a request that somebody waits for. Only channels can be asked for. -/
def ask (channel : MediaChannel) (e : Event) : Except Fault Event × MediaChannel :=
  match e.kind with
  | .createChannel =>
    (.ok { e with sender := .mediaChannel, target := .context, dst := channel.next },
      ⟨channel.next + 1⟩)
  | _ => (.error .unsupported, channel)

/-- Every change that is asked of an agent's media object is reported to that agent, once, by way of
the hub. -/
theorem hear_changeMedia {e : Event} {agent : Id} {role : Role} {change : MediaChange}
    (named : e.agent? = some agent) (asked : e.kind = .changeMedia role change) :
    hear e = some (answer e (.prosumerState change) (.agent { agent })) := by
  simp [hear, named, asked]

end MediaChannel

end CastHub
