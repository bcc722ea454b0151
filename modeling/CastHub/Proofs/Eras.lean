import CastHub.Rtcp.Ntp
import Mathlib.Algebra.GroupWithZero.Nat
/-!
# Eras of network time

The seconds of a network timestamp are counted modulo `2 ^ 32`; after each such era, some 136 years,
they begin again. A time of the first era comes back from its timestamp to the millisecond: the
fraction is cut off when the timestamp is made and rounded when it is read, and what is cut off is
far less than half a millisecond. A time of a later era is read as one of the first.

* `Ntp.milliseconds_of_fraction` : no millisecond is lost in the fraction;
* `Ntp.toUnixMs_ofUnixMs` : as which time the timestamp of a time is read, in all eras;
* `Ntp.toUnixMs_lt_of_later_era` : a time of a later era is read as an earlier one;
* `Ntp.times_come_back_iff` : which times come back.
-/

namespace CastHub.Rtcp.Ntp

/-! ## The fraction -/

/-- Milliseconds come back from their fraction: less than a unit of `2 ^ -32` s is cut off, and a
millisecond has four million of these. -/
theorem milliseconds_of_fraction (ms : Nat) :
    (ms * 0x100000000 / 1000 * 1000 + 0x80000000) / 0x100000000 = ms := by
  have cut : ms * 0x100000000 / 1000 * 1000 ≤ ms * 0x100000000 := Nat.div_mul_le_self ..
  have near : ms * 0x100000000 < ms * 0x100000000 / 1000 * 1000 + 1000 := by omega
  omega

/-- The fraction of a second has room in its word. -/
theorem toNat_fraction_ofUnixMs (ms : UInt64) :
    (ofUnixMs ms).fraction.toNat = ms.toNat % 1000 * 0x100000000 / 1000 := by
  refine UInt32.toNat_ofNat'.trans (Nat.mod_eq_of_lt ?_)
  omega

/-- The seconds are counted modulo `2 ^ 32`. -/
theorem toNat_seconds_ofUnixMs (ms : UInt64) :
    (ofUnixMs ms).seconds.toNat = (ms.toNat / 1000 + unixOffset) % 2 ^ 32 :=
  UInt32.toNat_ofNat'

/-! ## There and back -/

/-- As which time the timestamp of a time is read: as that of the first era with the same seconds,
or as the beginning of Unix time if there is none. -/
theorem toUnixMs_ofUnixMs (ms : UInt64) :
    (ofUnixMs ms).toUnixMs =
      ((ms.toNat / 1000 + unixOffset) % 2 ^ 32 - unixOffset) * 1000 + ms.toNat % 1000 := by
  rw [toUnixMs, toNat_seconds_ofUnixMs, toNat_fraction_ofUnixMs, milliseconds_of_fraction]

/-- A time of a later era is read as an earlier one. -/
theorem toUnixMs_lt_of_later_era {ms : UInt64} (later : 2 ^ 32 ≤ ms.toNat / 1000 + unixOffset) :
    (ofUnixMs ms).toUnixMs < ms.toNat := by
  have era : (ms.toNat / 1000 + unixOffset) % 2 ^ 32 < 2 ^ 32 := Nat.mod_lt _ (by decide)
  have offset : unixOffset = 0x83AA7E80 := rfl
  have split := Nat.div_add_mod ms.toNat 1000
  rw [toUnixMs_ofUnixMs]
  omega

/-- **A time comes back from its timestamp exactly within the first era.** Let a time be any 64-bit
number of milliseconds since 1970. The time that is read from its timestamp is that time if and only
if its seconds, counted from the beginning of network time, are less than `2 ^ 32`. -/
theorem times_come_back_iff (ms : UInt64) :
    (ofUnixMs ms).toUnixMs = ms.toNat ↔ ms.toNat / 1000 + unixOffset < 2 ^ 32 := by
  constructor
  · intro back
    refine Nat.lt_of_not_le fun later => ?_
    have earlier := toUnixMs_lt_of_later_era later
    omega
  · intro first
    have split := Nat.div_add_mod ms.toNat 1000
    rw [toUnixMs_ofUnixMs, Nat.mod_eq_of_lt first, Nat.add_sub_cancel]
    omega

/-- The last millisecond of the first era comes back, the one after it does not. -/
example : (ofUnixMs 2085978495999).toUnixMs = 2085978495999
    ∧ (ofUnixMs 2085978496000).toUnixMs = 0 := by
  decide

end CastHub.Rtcp.Ntp
