/-!
# Strings between quotes

* `Quoted.write` : a string's characters with their escapes, followed by the closing quote.
* `Quoted.read` : scans to the closing quote, one character at a time, and resolves the escapes.
  What it returns is `none` in place of the characters when an escape names half of a surrogate
  pair: such a string is well-formed text but stands for no characters.
* `Quoted.read_write` : reading what was written gives the characters back.
-/

namespace CastHub.Quoted

/-- The hexadecimal digit for a number below sixteen. -/
def hexDigit (n : Nat) : Char := Nat.digitChar n

/-- The value of a hexadecimal digit, of either case. -/
def hexValue? (c : Char) : Option Nat :=
  if '0' ≤ c ∧ c ≤ '9' then some (c.toNat - '0'.toNat)
  else if 'a' ≤ c ∧ c ≤ 'f' then some (c.toNat - 'a'.toNat + 10)
  else if 'A' ≤ c ∧ c ≤ 'F' then some (c.toNat - 'A'.toNat + 10)
  else none

/-- One character as it stands between quotes. Control characters are escaped, by a short form where
there is one. -/
def escape (c : Char) : List Char :=
  if c = '"' then ['\\', '"']
  else if c = '\\' then ['\\', '\\']
  else if c = '\n' then ['\\', 'n']
  else if c = '\r' then ['\\', 'r']
  else if c = '\t' then ['\\', 't']
  else if c = '\x08' then ['\\', 'b']
  else if c = '\x0c' then ['\\', 'f']
  else if c.toNat < 32 then ['\\', 'u', '0', '0', hexDigit (c.toNat / 16), hexDigit (c.toNat % 16)]
  else [c]

/-- The characters of a string between quotes, then the closing quote, then `rest`. -/
def write (chars : List Char) (rest : List Char) : List Char :=
  chars.foldr (fun c after => escape c ++ after) ('"' :: rest)

/-- A piece of a scanned string: a character, or the number of an escape. -/
inductive Piece where
  | char (c : Char)
  | unit (n : Nat)
deriving Repr, DecidableEq

/-- What the scanner is in the middle of. -/
inductive Scan where
  | plain
  | escaped
  /-- `left` hexadecimal digits are still to come; those read so far make `value`. -/
  | hex (left : Nat) (value : Nat)
deriving Repr, DecidableEq

/-- The character that a short escape stands for. -/
def shortEscape? : Char → Option Char
  | '"' => some '"'
  | '\\' => some '\\'
  | '/' => some '/'
  | 'b' => some '\x08'
  | 'f' => some '\x0c'
  | 'n' => some '\n'
  | 'r' => some '\r'
  | 't' => some '\t'
  | _ => none

/-- Scans to the closing quote. `pieces` are those already read, the latest first. -/
def scan (pieces : List Piece) : Scan → List Char → Option (List Piece × List Char)
  | _, [] => none
  | .plain, c :: rest =>
    if c = '"' then some (pieces.reverse, rest)
    else if c = '\\' then scan pieces .escaped rest
    else if c.toNat < 32 then none
    else scan (.char c :: pieces) .plain rest
  | .escaped, c :: rest =>
    if c = 'u' then scan pieces (.hex 4 0) rest
    else
      match shortEscape? c with
      | some e => scan (.char e :: pieces) .plain rest
      | none => none
  | .hex left value, c :: rest =>
    match hexValue? c with
    | none => none
    | some d =>
      let value := 16 * value + d
      if left ≤ 1 then scan (.unit value :: pieces) .plain rest
      else scan pieces (.hex (left - 1) value) rest

/-- The first half of a surrogate pair. -/
def isLead (n : Nat) : Bool := 0xD800 ≤ n && n ≤ 0xDBFF

/-- The second half of a surrogate pair. -/
def isTrail (n : Nat) : Bool := 0xDC00 ≤ n && n ≤ 0xDFFF

/-- The character that a surrogate pair stands for. -/
def joinPair (lead trail : Nat) : Char :=
  Char.ofNat (0x10000 + (lead - 0xD800) * 0x400 + (trail - 0xDC00))

/-- The characters that pieces stand for; none when half a surrogate pair stands alone. -/
def resolve : List Piece → Option (List Char)
  | [] => some []
  | .char c :: rest => (resolve rest).map (c :: ·)
  | .unit n :: .unit m :: rest =>
    if isLead n then
      if isTrail m then (resolve rest).map (joinPair n m :: ·) else none
    else if isTrail n then none
    else (resolve (.unit m :: rest)).map (Char.ofNat n :: ·)
  | .unit n :: rest =>
    if isLead n || isTrail n then none else (resolve rest).map (Char.ofNat n :: ·)

/-- Reads a string whose opening quote has been read. -/
def read (text : List Char) : Option (Option (List Char) × List Char) :=
  (scan [] .plain text).map fun (pieces, rest) => (resolve pieces, rest)

/-- The piece that the scanner makes of an escaped character. -/
def pieceOf (c : Char) : Piece :=
  if c.toNat < 32 ∧ c ≠ '\n' ∧ c ≠ '\r' ∧ c ≠ '\t' ∧ c ≠ '\x08' ∧ c ≠ '\x0c' then .unit c.toNat
  else .char c

/-- A digit below sixteen has the value it was written for. -/
theorem hexValue?_hexDigit {n : Nat} (h : n < 16) : hexValue? (hexDigit n) = some n := by
  have table : ∀ k : Fin 16, hexValue? (hexDigit k.val) = some k.val := by decide
  exact table ⟨n, h⟩

/-- The scanner makes one piece of one escaped character. -/
theorem scan_escape (pieces : List Piece) (c : Char) (after : List Char) :
    scan pieces .plain (escape c ++ after) = scan (pieceOf c :: pieces) .plain after := by
  by_cases h1 : c = '"'
  · subst h1; simp [escape, scan, shortEscape?, pieceOf]
  by_cases h2 : c = '\\'
  · subst h2; simp [escape, scan, shortEscape?, pieceOf]
  by_cases h3 : c = '\n'
  · subst h3; simp [escape, scan, shortEscape?, pieceOf]
  by_cases h4 : c = '\r'
  · subst h4; simp [escape, scan, shortEscape?, pieceOf]
  by_cases h5 : c = '\t'
  · subst h5; simp [escape, scan, shortEscape?, pieceOf]
  by_cases h6 : c = '\x08'
  · subst h6; simp [escape, scan, shortEscape?, pieceOf]
  by_cases h7 : c = '\x0c'
  · subst h7; simp [escape, scan, shortEscape?, pieceOf]
  by_cases h8 : c.toNat < 32
  · have hi := hexValue?_hexDigit (n := c.toNat / 16) (by omega)
    have lo := hexValue?_hexDigit (n := c.toNat % 16) (by omega)
    have zero : hexValue? '0' = some 0 := by decide
    have value : 16 * (c.toNat / 16) + c.toNat % 16 = c.toNat := by omega
    simp [escape, scan, pieceOf, h1, h2, h3, h4, h5, h6, h7, h8, hi, lo, zero, value]
  · simp [escape, scan, pieceOf, h1, h2, h3, h4, h5, h6, h7, h8]

/-- The scanner goes through written characters piece by piece. -/
theorem scan_write (chars : List Char) (pieces : List Piece) (rest : List Char) :
    scan pieces .plain (write chars rest) = some (pieces.reverse ++ chars.map pieceOf, rest) := by
  induction chars generalizing pieces with
  | nil => simp [write, scan]
  | cons c cs ih =>
    have step : write (c :: cs) rest = escape c ++ write cs rest := rfl
    rw [step, scan_escape, ih]
    simp

/-- The pieces of written characters stand for those characters. -/
theorem resolve_pieceOf (chars : List Char) : resolve (chars.map pieceOf) = some chars := by
  induction chars with
  | nil => rfl
  | cons c cs ih =>
    simp only [List.map_cons]
    by_cases h : c.toNat < 32 ∧ c ≠ '\n' ∧ c ≠ '\r' ∧ c ≠ '\t' ∧ c ≠ '\x08' ∧ c ≠ '\x0c'
    · have small := h.1
      have lead : isLead c.toNat = false := by simp [isLead]; omega
      have trail : isTrail c.toNat = false := by simp [isTrail]; omega
      have back : Char.ofNat c.toNat = c := Char.ofNat_toNat c
      simp only [pieceOf, if_pos h]
      cases hp : cs.map pieceOf with
      | nil => rw [hp] at ih; simp [resolve, lead, trail, ← Option.some.inj ih, back]
      | cons p ps =>
        rw [hp] at ih
        cases p with
        | char d => simp only [resolve, lead, trail] at ih ⊢; simp [ih, back]
        | unit m => simp only [resolve, lead, trail] at ih ⊢; simp [ih, back]
    · simp [pieceOf, if_neg h, resolve, ih]

/-- **Reading what was written gives the characters back**, and leaves what follows untouched. -/
theorem read_write (chars rest : List Char) :
    read (write chars rest) = some (some chars, rest) := by
  simp [read, scan_write, resolve_pieceOf]

end CastHub.Quoted
