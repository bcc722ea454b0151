import CastHub.Json.Tree
/-!
# Reading JSON texts

`JsonTree.parse?` reads a whole text: blanks, one value, blanks, and nothing else. The grammar is
the strict one: no comments, no trailing commas, no superfluous zeros, no bare control characters in
strings. How deep a text nests is not limited here, but by whoever takes a value from the tree.
-/

namespace CastHub.JsonTree

/-- Characters that may stand between tokens. -/
def isBlank (c : Char) : Bool := c = ' ' || c = '\n' || c = '\t' || c = '\r'

/-- Skips blanks. -/
def skipBlank (text : List Char) : List Char := text.dropWhile isBlank

/-- Splits off the digits that a text begins with. -/
def splitDigits (text : List Char) : List Char × List Char := text.span Char.isDigit

/-- Reads the digits of an exponent, after its letter. -/
def readExponent (text : List Char) : Option ((Bool × List Char) × List Char) :=
  let (minus, text) :=
    match text with
    | '+' :: rest => (false, rest)
    | '-' :: rest => (true, rest)
    | _ => (false, text)
  match splitDigits text with
  | ([], _) => none
  | (digits, rest) => some ((minus, digits), rest)

/-- Reads the exponent of a number, if it has one. -/
def readExponent? (text : List Char) : Option (Option (Bool × List Char) × List Char) :=
  match text with
  | 'e' :: rest => (readExponent rest).map fun (e, rest) => (some e, rest)
  | 'E' :: rest => (readExponent rest).map fun (e, rest) => (some e, rest)
  | _ => some (none, text)

/-- Reads the digits after a number's point, if it has one. -/
def readFraction? (text : List Char) : Option (Option (List Char) × List Char) :=
  match text with
  | '.' :: rest =>
    match splitDigits rest with
    | ([], _) => none
    | (digits, rest) => some (some digits, rest)
  | _ => some (none, text)

/-- Reads a number without its sign. A zero before the point stands alone. -/
def readMagnitude (negative : Bool) (text : List Char) : Option (Numeral × List Char) :=
  match splitDigits text with
  | ([], _) => none
  | ('0' :: _ :: _, _) => none
  | (whole, rest) => do
    let (fraction, rest) ← readFraction? rest
    let (exponent, rest) ← readExponent? rest
    some (⟨negative, whole, fraction, exponent⟩, rest)

/-- Reads a number. -/
def readNumeral (text : List Char) : Option (Numeral × List Char) :=
  match text with
  | '-' :: rest => readMagnitude true rest
  | _ => readMagnitude false text

/-- Reads a string, quotes included. -/
def readString (text : List Char) : Option (Option String × List Char) :=
  match text with
  | '"' :: rest => (Quoted.read rest).map fun (chars, rest) => (chars.map String.ofList, rest)
  | _ => none

/-- Reads a string and the colon after it. -/
def readKey (text : List Char) : Option (Option String × List Char) :=
  match readString text with
  | none => none
  | some (key, rest) =>
    match skipBlank rest with
    | ':' :: rest => some (key, skipBlank rest)
    | _ => none

mutual

/-- Reads a value at the start of a text. `fuel` bounds the steps. -/
def readValue (fuel : Nat) (text : List Char) : Option (JsonTree × List Char) :=
  match fuel with
  | 0 => none
  | fuel + 1 =>
    match text with
    | 'n' :: 'u' :: 'l' :: 'l' :: rest => some (.null, rest)
    | 't' :: 'r' :: 'u' :: 'e' :: rest => some (.bool true, rest)
    | 'f' :: 'a' :: 'l' :: 's' :: 'e' :: rest => some (.bool false, rest)
    | '"' :: rest =>
      (Quoted.read rest).map fun (chars, rest) => (.string (chars.map String.ofList), rest)
    | '[' :: rest =>
      match skipBlank rest with
      | ']' :: rest => some (.array [], rest)
      | rest => (readItems fuel rest).map fun (items, rest) => (.array items, rest)
    | '\x7b' :: rest =>
      match skipBlank rest with
      | '\x7d' :: rest => some (.object [], rest)
      | rest => (readFields fuel rest).map fun (fields, rest) => (.object fields, rest)
    | _ => (readNumeral text).map fun (n, rest) => (.number n, rest)

/-- Reads the items of an array that has at least one, and its closing bracket. -/
def readItems (fuel : Nat) (text : List Char) : Option (List JsonTree × List Char) :=
  match fuel with
  | 0 => none
  | fuel + 1 =>
    match readValue fuel text with
    | none => none
    | some (item, rest) =>
      match skipBlank rest with
      | ']' :: rest => some ([item], rest)
      | ',' :: rest =>
        (readItems fuel (skipBlank rest)).map fun (items, rest) => (item :: items, rest)
      | _ => none

/-- Reads the fields of an object that has at least one, and its closing brace. -/
def readFields (fuel : Nat) (text : List Char) :
    Option (List (Option String × JsonTree) × List Char) :=
  match fuel with
  | 0 => none
  | fuel + 1 =>
    match readKey text with
    | none => none
    | some (key, rest) =>
      match readValue fuel rest with
      | none => none
      | some (value, rest) =>
        match skipBlank rest with
        | '\x7d' :: rest => some ([(key, value)], rest)
        | ',' :: rest =>
          (readFields fuel (skipBlank rest)).map
            fun (fields, rest) => ((key, value) :: fields, rest)
        | _ => none

end

/-- Reads a whole text. Every step of the reader but the first in an array or object takes a
character off the text, so twice its length is fuel enough. -/
def parse? (text : String) : Option JsonTree :=
  let chars := text.toList
  match readValue (2 * chars.length + 2) (skipBlank chars) with
  | none => none
  | some (tree, rest) => if (skipBlank rest).isEmpty then some tree else none

end CastHub.JsonTree

namespace CastHub

/-- Reads a free-form value, nested at most `JsonTree.maxDepth` deep. -/
def Json.Value.parse? (text : String) : Option Json.Value :=
  (JsonTree.parse? text).bind (JsonTree.freeValue? JsonTree.maxDepth)

end CastHub
