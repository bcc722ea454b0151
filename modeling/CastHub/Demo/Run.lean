import CastHub.Demo.Feedback
import CastHub.Demo.Sharing
/-!
# The demonstration

The sharing session, and after it the feedback on a media stream.
-/

namespace CastHub.Demo

/-- Plays one part, and then another unless the first ended early. -/
def Show.followedBy (first : Show) (second : Unit → Show) : Show :=
  match first.failure with
  | some _ => first
  | none =>
    let second := second ()
    { second with lines := first.lines ++ second.lines }

/-- The feedback as a part of the demonstration. -/
def feedbackShow : Show :=
  match feedback with
  | .ok line => { lines := [line] }
  | .error reason => { failure := some reason.message }

/-- The demonstration. `name` is what the configuration is called. -/
def run (name : String) (config : Except ConfigError Config) : Show :=
  match config with
  | .error _ => { failure := some ("loading " ++ name) }
  | .ok config => (share config).followedBy fun _ => feedbackShow

end CastHub.Demo
