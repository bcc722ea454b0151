/-!
# Base64

Bytes as text: every three bytes make four symbols out of an alphabet of 64, and one or two bytes at
the end make two or three symbols, filled up to four with `=`.

Decoding is strict: the fill is required, and the bits of the last symbol that belong to no byte
must be zero. So a text is accepted only if it is what `encode` writes for some bytes. A refusal
tells the first byte that is to blame, by its value and its place.
-/

namespace CastHub.Base64

/-- The fill. -/
def pad : UInt8 := 61

/-- The symbol for a number below 64. -/
def symbol (n : Nat) : UInt8 :=
  if n < 26 then UInt8.ofNat (65 + n)
  else if n < 52 then UInt8.ofNat (97 + (n - 26))
  else if n < 62 then UInt8.ofNat (48 + (n - 52))
  else if n = 62 then 43
  else 47

/-- The number that a symbol stands for. -/
def value? (b : UInt8) : Option Nat :=
  if 65 ≤ b ∧ b ≤ 90 then some (b.toNat - 65)
  else if 97 ≤ b ∧ b ≤ 122 then some (b.toNat - 97 + 26)
  else if 48 ≤ b ∧ b ≤ 57 then some (b.toNat - 48 + 52)
  else if b = 43 then some 62
  else if b = 47 then some 63
  else none

/-- The text of some bytes, as bytes. -/
def encode : List UInt8 → List UInt8
  | a :: b :: c :: rest =>
    let n := (a.toNat * 256 + b.toNat) * 256 + c.toNat
    symbol (n / 262144) :: symbol (n / 4096 % 64) :: symbol (n / 64 % 64) :: symbol (n % 64)
      :: encode rest
  | [a, b] =>
    let n := a.toNat * 256 + b.toNat
    [symbol (n / 1024), symbol (n / 16 % 64), symbol (n % 16 * 4), pad]
  | [a] => [symbol (a.toNat / 4), symbol (a.toNat % 4 * 16), pad, pad]
  | [] => []

/-- Why a text is refused. -/
inductive Refusal where
  /-- A byte that may not stand at its place. -/
  | badSymbol (byte : UInt8) (offset : Nat)
  /-- The last group has fewer than two symbols. -/
  | badLength (length : Nat)
  /-- The last group is not filled up to four. -/
  | badPadding
  /-- The last symbol has bits that belong to no byte. -/
  | badLastSymbol (byte : UInt8) (offset : Nat)
deriving Repr, DecidableEq

/-- The sentence shown to people. -/
def Refusal.message : Refusal → String
  | badSymbol byte offset =>
    "Invalid symbol " ++ toString byte.toNat ++ ", offset " ++ toString offset ++ "."
  | badLength length => "Invalid input length: " ++ toString length
  | badPadding => "Invalid padding"
  | badLastSymbol byte offset =>
    "Invalid last symbol " ++ toString byte.toNat ++ ", offset " ++ toString offset ++ "."

/-- The bytes of full groups of symbols that begin at `offset`. Bytes after the last full group are
not looked at. -/
def decodeGroups (offset : Nat) : List UInt8 → Except Refusal (List UInt8)
  | a :: b :: c :: d :: rest =>
    match value? a, value? b, value? c, value? d with
    | none, _, _, _ => .error (.badSymbol a offset)
    | _, none, _, _ => .error (.badSymbol b (offset + 1))
    | _, _, none, _ => .error (.badSymbol c (offset + 2))
    | _, _, _, none => .error (.badSymbol d (offset + 3))
    | some w, some x, some y, some z =>
      let n := ((w * 64 + x) * 64 + y) * 64 + z
      match decodeGroups (offset + 4) rest with
      | .error e => .error e
      | .ok bytes =>
        .ok (UInt8.ofNat (n / 0x10000) :: UInt8.ofNat (n / 0x100) :: UInt8.ofNat n :: bytes)
  | _ => .ok []

/-- The symbols and the fill of the last group. -/
structure LastGroup where
  /-- The numbers of the symbols read so far. -/
  values : List Nat := []
  /-- Where the fill begins. -/
  fill : Option Nat := none
  /-- How long the fill is. -/
  filled : Nat := 0

/-- Reads the last group from `offset` on. -/
def readLast (g : LastGroup) (offset : Nat) : List UInt8 → Except Refusal LastGroup
  | [] => .ok g
  | b :: rest =>
    if b = pad then
      if g.values.length + g.filled < 2 then .error (.badSymbol pad offset)
      else
        readLast { g with fill := some (g.fill.getD offset), filled := g.filled + 1 }
          (offset + 1) rest
    else
      match g.fill with
      | some start => .error (.badSymbol pad start)
      | none =>
        match value? b with
        | none => .error (.badSymbol b offset)
        | some v => readLast { g with values := g.values ++ [v] } (offset + 1) rest

/-- The bytes of the last group, which begins at `offset`. -/
def decodeLast (offset : Nat) (text : List UInt8) : Except Refusal (List UInt8) :=
  match readLast {} offset text with
  | .error e => .error e
  | .ok g =>
    if g.values.length < 2 then .error (.badLength (offset + g.values.length))
    else if (g.values.length + g.filled) % 4 ≠ 0 then .error .badPadding
    else
      match g.values with
      | [w, x] =>
        if x % 16 ≠ 0 then .error (.badLastSymbol (text.getD 1 0) (offset + 1))
        else .ok [UInt8.ofNat ((w * 64 + x) / 16)]
      | [w, x, y] =>
        let n := (w * 64 + x) * 64 + y
        if y % 4 ≠ 0 then .error (.badLastSymbol (text.getD 2 0) (offset + 2))
        else .ok [UInt8.ofNat (n / 1024), UInt8.ofNat (n / 4)]
      | [w, x, y, z] =>
        let n := ((w * 64 + x) * 64 + y) * 64 + z
        .ok [UInt8.ofNat (n / 0x10000), UInt8.ofNat (n / 0x100), UInt8.ofNat n]
      | _ => .error .badPadding

/-- A lone byte after full groups is to blame before anything else, if it is neither a symbol nor
fill. -/
def strayByte? (text : List UInt8) : Option UInt8 :=
  if text.length % 4 = 1 then text.getLast?.filter fun b => b ≠ pad && (value? b).isNone else none

/-- The bytes of a text. -/
def decode (text : List UInt8) : Except Refusal (List UInt8) :=
  match strayByte? text with
  | some b => .error (.badSymbol b (text.length - 1))
  | none =>
    if text.isEmpty then .ok []
    else
      -- the last group is the last one to four bytes
      let offset := (text.length - 1) / 4 * 4
      match decodeGroups 0 (text.take offset) with
      | .error e => .error e
      | .ok bytes =>
        match decodeLast offset (text.drop offset) with
        | .error e => .error e
        | .ok last => .ok (bytes ++ last)

end CastHub.Base64
