import CastHub.Service.Basic
import CastHub.Text.Blank
/-!
# Serving a client line by line

A client writes one request per line and gets one reply per line. It waits for nothing but its own
replies, so the service may have anything else to do between two lines. Blank lines are passed over.
A line that is not UTF-8 ends the conversation; the replies before it stand.
-/

namespace CastHub

namespace Lines

variable {α : Type} [DecidableEq α]

/-- Splits off what stands before the first line feed. The rest begins after it; there is none if
there is no line feed. -/
def cut (feed : α) : List α → List α × Option (List α)
  | [] => ([], none)
  | c :: rest =>
    if c = feed then ([], some rest)
    else
      let (line, after) := cut feed rest
      (c :: line, after)

/-- What remains after a line is shorter. -/
theorem length_of_cut {feed : α} {text line rest : List α} (h : cut feed text = (line, some rest)) :
    rest.length < text.length := by
  induction text generalizing line with
  | nil => cases h
  | cons c tail ih =>
    simp only [cut] at h
    split at h
    · cases h
      exact Nat.lt_succ_self _
    · have found : cut feed tail = ((cut feed tail).1, some rest) := by
        rw [← (Prod.mk.inj h).2]
      exact Nat.lt_succ_of_lt (ih found)

/-- Drops the carriage return before a line feed. -/
def withoutReturn (back : α) (line : List α) : List α :=
  if line.getLast? = some back then line.dropLast else line

/-- The lines of a text, of bytes or of characters. What stands after the last line feed is a line
too. -/
def split (feed back : α) (text : List α) : List (List α) :=
  match h : cut feed text with
  | (line, some rest) =>
    have := length_of_cut h
    withoutReturn back line :: split feed back rest
  | (line, none) => if line = [] then [] else [line]
termination_by text.length

end Lines

namespace Service

/-- Answers lines in order. Meanwhile the service goes on with its queue: `pace` says of each reply
how many envelopes are delivered between it and the next request. Also tells whether all of the
lines were UTF-8. -/
def serveLines (wording : String → String) (client : Id) :
    (Nat → Nat) → Service → List (List UInt8) → List Reply × Bool × Service
  | _, s, [] => ([], true, s)
  | pace, s, line :: rest =>
    match String.fromUTF8? ⟨line.toArray⟩ with
    | none => ([], false, s)
    | some text =>
      if Text.isBlankLine text then serveLines wording client pace s rest
      else
        let (reply, s) := s.serveText client text wording
        let (replies, readable, s) :=
          serveLines wording client (fun k => pace (k + 1)) (s.drain (pace 0)) rest
        (reply :: replies, readable, s)

/-- Serves a client from a stream of bytes. -/
def serve (s : Service) (client : Id) (bytes : List UInt8) (pace : Nat → Nat := fun _ => 0)
    (wording : String → String := fun _ => invalidRequest) : List Reply × Bool × Service :=
  serveLines wording client pace s (Lines.split 10 13 bytes)

end Service

/-- What a client reads that has been given some replies. -/
def transcript (replies : List Reply) : String := String.join (replies.map Reply.line)

end CastHub
