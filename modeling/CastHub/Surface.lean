import CastHub.Base64
/-!
# Surface handles

A surface handle is a number of 64 bits that means something to the window system alone. Clients
send it as the base64 text of its eight bytes, highest first.
-/

namespace CastHub.Surface

/-- Why a text is no handle. -/
inductive Refusal where
  | encoding (reason : Base64.Refusal)
  | length (bytes : Nat)
deriving Repr, DecidableEq

/-- The sentence shown to people. -/
def Refusal.message : Refusal → String
  | encoding reason => "Invalid surface encoding: " ++ reason.message
  | length bytes => "Surface handle must be 8 bytes, got " ++ toString bytes

/-- The eight bytes of a handle, highest first. -/
def bytes (handle : UInt64) : List UInt8 :=
  (List.range 8).map fun i => UInt8.ofNat (handle.toNat >>> (8 * (7 - i)))

/-- The text of a handle. -/
def encode (handle : UInt64) : String :=
  String.ofList ((Base64.encode (bytes handle)).map fun b => Char.ofNat b.toNat)

/-- The handle that a text stands for. -/
def decode (text : String) : Except Refusal UInt64 :=
  match Base64.decode text.toUTF8.data.toList with
  | .error reason => .error (.encoding reason)
  | .ok bytes =>
    if bytes.length = 8 then
      .ok (UInt64.ofNat (bytes.foldl (fun n b => n * 256 + b.toNat) 0))
    else .error (.length bytes.length)

end CastHub.Surface
