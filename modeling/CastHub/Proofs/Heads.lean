import CastHub.Proofs.Lengths
/-!
# What a head says

The first four bytes of a packet say what to expect: a version, a number of items, a type, and how
many words follow. The reader looks at them in that order, and after each it may give up. So there
is one lemma for each place where it ends: `Packet.parse_of_short`, `Packet.parse_of_version`,
`Packet.parse_of_type`, `Packet.parse_of_total`, and `Packet.parse_of_body` where the body decides.
All but the first are cases of `Packet.parse_of_head`.
-/

namespace CastHub.Rtcp

namespace Packet

variable {data : List UInt8} {type : PacketType}

/-- The version that a head says, in its two highest bits. -/
def versionAt (data : List UInt8) : Nat := (data.getD 0 0).toNat / 64

/-- The number of items that a head counts, in five bits. -/
def itemsAt (data : List UInt8) : Nat := (data.getD 0 0).toNat % 32

/-- The number of the type that a head says. -/
def typeAt (data : List UInt8) : Nat := (data.getD 1 0).toNat

/-- How many bytes a packet takes by its head. -/
def totalAt (data : List UInt8) : Nat := 4 * (countAt data 0 + 1)

/-- The bytes of a packet behind its head. -/
def bodyAt (data : List UInt8) : List UInt8 := (data.take (totalAt data)).drop 4

theorem length_bodyAt (enough : totalAt data ≤ data.length) :
    (bodyAt data).length = 4 * countAt data 0 := by
  have total : totalAt data = 4 * (countAt data 0 + 1) := rfl
  rw [bodyAt, List.length_drop, List.length_take]
  omega

/-! The reader looks at the parts of a head in their order. -/

theorem parse_of_short (short : data.length < 4) :
    parse data = .error (.truncated 4 data.length) := by
  unfold parse
  split
  · rename_i first second third fourth rest
    simp only [List.length_cons] at short
    omega
  · rfl

/-- The decisions of the reader, once there is a head. -/
theorem parse_of_head (there : 4 ≤ data.length) : parse data =
    if versionAt data ≠ version then .error (.badVersion (versionAt data))
    else
      match PacketType.ofCode? (typeAt data) with
      | none => .error (.unsupportedType (typeAt data))
      | some type =>
        if data.length < totalAt data then .error (.truncated (totalAt data) data.length)
        else (ofBody type (itemsAt data) (wordsOf (bodyAt data))).map (·, totalAt data) := by
  obtain ⟨first, second, third, fourth, rest, rfl⟩ := exists_four there
  have total : totalAt (first :: second :: third :: fourth :: rest)
      = 4 * (third.toNat * 0x100 + fourth.toNat) + 4 := rfl
  have few : (rest.take (4 * (third.toNat * 0x100 + fourth.toNat))).length
        < 4 * (third.toNat * 0x100 + fourth.toNat) ↔
      (first :: second :: third :: fourth :: rest).length
        < totalAt (first :: second :: third :: fourth :: rest) := by
    rw [total, List.length_take]
    simp only [List.length_cons]
    omega
  simp only [parse, few]
  rfl

theorem parse_of_version (there : 4 ≤ data.length) (other : versionAt data ≠ version) :
    parse data = .error (.badVersion (versionAt data)) := by
  rw [parse_of_head there, if_pos other]

theorem parse_of_type (there : 4 ≤ data.length) (isVersion : versionAt data = version)
    (unknown : PacketType.ofCode? (typeAt data) = none) :
    parse data = .error (.unsupportedType (typeAt data)) := by
  rw [parse_of_head there, if_neg (not_not_intro isVersion), unknown]

theorem parse_of_total (there : 4 ≤ data.length) (isVersion : versionAt data = version)
    (isType : PacketType.ofCode? (typeAt data) = some type) (short : data.length < totalAt data) :
    parse data = .error (.truncated (totalAt data) data.length) := by
  rw [parse_of_head there, if_neg (not_not_intro isVersion), isType]
  exact if_pos short

theorem parse_of_body (there : 4 ≤ data.length) (isVersion : versionAt data = version)
    (isType : PacketType.ofCode? (typeAt data) = some type) (enough : totalAt data ≤ data.length) :
    parse data = (ofBody type (itemsAt data) (wordsOf (bodyAt data))).map (·, totalAt data) := by
  rw [parse_of_head there, if_neg (not_not_intro isVersion), isType]
  exact if_neg (Nat.not_lt_of_le enough)

/-! The reader of a report first looks whether there is room for the items. -/

theorem senderOfBody_of_lt {count : Nat} {words : List UInt32}
    (few : words.length < 6 + 6 * count) :
    senderOfBody count words = .error (.truncated (24 + 24 * count) (4 * words.length)) := by
  have bytes : 24 + 24 * count = 4 * (6 + 6 * count) := by omega
  rw [bytes]
  exact if_pos few

theorem receiverOfBody_of_lt {count : Nat} {words : List UInt32}
    (few : words.length < 1 + 6 * count) :
    receiverOfBody count words = .error (.truncated (4 + 24 * count) (4 * words.length)) := by
  have bytes : 4 + 24 * count = 4 * (1 + 6 * count) := by omega
  rw [bytes]
  exact if_pos few

end Packet

end CastHub.Rtcp
