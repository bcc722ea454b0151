import CastHub.Base64
import Mathlib.Algebra.GroupWithZero.Nat
import Mathlib.Tactic.Common
/-!
# One text for all bytes

Base64 leaves room for more texts than there are bytes: a text may lack its fill, and where one or
two bytes are left at the end the last symbol has bits that belong to none of them. A strict reader
takes one of these texts only, the one that `encode` writes.

Both ways go group by group: full groups are read as they were written, and the last one is the only
one that may be filled up.

* `value?_symbol`, `symbol_of_value?` : symbols and their numbers;
* `decodeGroups_encode`, `encode_of_decodeGroups` : full groups, both ways;
* `LastGroup.Formed` : what is read of a last group makes up its text, with `formed_readLast`;
* `decodeLast_encode`, `encode_of_decodeLast` : the last group, both ways;
* `decode_eq_ok_iff` : which text stands for some bytes.
-/

namespace CastHub.Base64

/-! ## Symbols -/

/-- The symbol for a number stands for it. -/
theorem value?_symbol {n : Nat} (small : n < 64) : value? (symbol n) = some n := by
  have table : ∀ k : Fin 64, value? (symbol k.val) = some k.val := by decide
  exact table ⟨n, small⟩

/-- What a symbol stands for is below 64, and that is its symbol. -/
theorem symbol_of_value? {b : UInt8} {n : Nat} (found : value? b = some n) :
    n < 64 ∧ symbol n = b := by
  have table : ∀ k : Fin 256, ∀ v ∈ value? (UInt8.ofNat k.val),
      v < 64 ∧ symbol v = UInt8.ofNat k.val := by decide +kernel
  have here := table ⟨b.toNat, b.toNat_lt⟩ n
  rw [UInt8.ofNat_toNat] at here
  exact here found

theorem symbol_ne_pad {n : Nat} (small : n < 64) : symbol n ≠ pad := by
  intro same
  have none : value? (symbol n) = value? pad := congrArg value? same
  rw [value?_symbol small] at none
  exact nomatch none

/-! ## Texts -/

/-- Every three bytes make four symbols, and so do the last one or two. -/
theorem length_encode (bytes : List UInt8) :
    (encode bytes).length = (bytes.length + 2) / 3 * 4 := by
  fun_induction encode bytes with
  | case1 a b c rest n ih =>
    simp only [List.length_cons, ih]
    omega
  | case2 a b n => simp only [List.length_cons, List.length_nil]
  | case3 a => simp only [List.length_cons, List.length_nil]
  | case4 => rfl

/-- Full groups are written apart from what follows. -/
theorem encode_append {first : List UInt8} (whole : first.length % 3 = 0) (rest : List UInt8) :
    encode (first ++ rest) = encode first ++ encode rest := by
  fun_induction encode first with
  | case1 a b c later n ih =>
    simp only [List.length_cons] at whole
    show _ :: _ :: _ :: _ :: encode (later ++ rest) = _
    rw [ih (by omega)]
    rfl
  | case2 a b n => exact nomatch whole
  | case3 a => exact nomatch whole
  | case4 => rfl

/-! ## Full groups -/

/-- A byte is the lowest one of any number that ends in it. -/
theorem ofNat_eq_of_mod {n : Nat} {b : UInt8} (ends : n % 256 = b.toNat) : UInt8.ofNat n = b := by
  apply UInt8.toNat_inj.1
  rw [UInt8.toNat_ofNat']
  exact ends

/-- Three bytes are made of the number that they make. -/
theorem bytes_of_group (a b c : UInt8) {n : Nat}
    (number : n = (a.toNat * 256 + b.toNat) * 256 + c.toNat) :
    [UInt8.ofNat (n / 0x10000), UInt8.ofNat (n / 0x100), UInt8.ofNat n] = [a, b, c] := by
  have first := a.toNat_lt
  have second := b.toNat_lt
  have third := c.toNat_lt
  have high : UInt8.ofNat (n / 0x10000) = a := ofNat_eq_of_mod (by omega)
  have middle : UInt8.ofNat (n / 0x100) = b := ofNat_eq_of_mod (by omega)
  have low : UInt8.ofNat n = c := ofNat_eq_of_mod (by omega)
  rw [high, middle, low]

/-- Full groups are read as they were written. -/
theorem decodeGroups_encode {bytes : List UInt8} (whole : bytes.length % 3 = 0) (offset : Nat) :
    decodeGroups offset (encode bytes) = .ok bytes := by
  fun_induction encode bytes generalizing offset with
  | case1 a b c rest n ih =>
    simp only [List.length_cons] at whole
    have first := a.toNat_lt
    have second := b.toNat_lt
    have third := c.toNat_lt
    have number : n = (a.toNat * 256 + b.toNat) * 256 + c.toNat := rfl
    have again : ((n / 262144 * 64 + n / 4096 % 64) * 64 + n / 64 % 64) * 64 + n % 64 = n := by
      omega
    have read := bytes_of_group a b c number
    rw [decodeGroups, value?_symbol (by omega), value?_symbol (by omega), value?_symbol (by omega),
      value?_symbol (by omega)]
    dsimp only
    rw [ih (by omega), again]
    injection read with high read
    injection read with middle read
    injection read with low read
    dsimp only
    rw [high, middle, low]
  | case2 a b n => exact nomatch whole
  | case3 a => exact nomatch whole
  | case4 => rfl

/-- Four numbers below 64 are written as they were read. -/
theorem encode_group {w x y z n : Nat} (first : w < 64) (second : x < 64) (third : y < 64)
    (fourth : z < 64) (number : n = ((w * 64 + x) * 64 + y) * 64 + z) (rest : List UInt8) :
    encode (UInt8.ofNat (n / 0x10000) :: UInt8.ofNat (n / 0x100) :: UInt8.ofNat n :: rest)
      = symbol w :: symbol x :: symbol y :: symbol z :: encode rest := by
  have again : ((UInt8.ofNat (n / 0x10000)).toNat * 256 + (UInt8.ofNat (n / 0x100)).toNat) * 256
      + (UInt8.ofNat n).toNat = n := by
    rw [UInt8.toNat_ofNat', UInt8.toNat_ofNat', UInt8.toNat_ofNat']
    omega
  have one : n / 262144 = w := by omega
  have two : n / 4096 % 64 = x := by omega
  have three : n / 64 % 64 = y := by omega
  have four : n % 64 = z := by omega
  rw [encode, again, one, two, three, four]

/-- A text of full groups that is read is what is written for the bytes. -/
theorem encode_of_decodeGroups {offset : Nat} {text bytes : List UInt8}
    (whole : text.length % 4 = 0) (read : decodeGroups offset text = .ok bytes) :
    text = encode bytes ∧ bytes.length % 3 = 0 := by
  fun_induction decodeGroups offset text generalizing bytes with
  | case1 | case2 | case3 | case4 | case5 => exact nomatch read
  | case6 offset a b c d rest w x y z fourth third second first n later deeper =>
    rename_i ih
    obtain rfl := Except.ok.inj read
    simp only [List.length_cons] at whole
    obtain ⟨rfl, multiple⟩ := ih (by omega) deeper
    obtain ⟨w_lt, rfl⟩ := symbol_of_value? first
    obtain ⟨x_lt, rfl⟩ := symbol_of_value? second
    obtain ⟨y_lt, rfl⟩ := symbol_of_value? third
    obtain ⟨z_lt, rfl⟩ := symbol_of_value? fourth
    refine ⟨(encode_group w_lt x_lt y_lt z_lt rfl later).symm, ?_⟩
    simp only [List.length_cons]
    omega
  | case7 text offset short =>
    obtain rfl := Except.ok.inj read
    match text with
    | [] => exact ⟨rfl, rfl⟩
    | [a] => exact nomatch whole
    | [a, b] => exact nomatch whole
    | [a, b, c] => exact nomatch whole
    | a :: b :: c :: d :: rest => exact absurd rfl (short a b c d rest)

/-! ## The last group -/

namespace LastGroup

/-- The text that was read of a last group. -/
def text (g : LastGroup) : List UInt8 := g.values.map symbol ++ List.replicate g.filled pad

/-- What is read of a last group are numbers of symbols, and nothing is filled up before the fill
begins. -/
structure Formed (g : LastGroup) : Prop where
  values_lt : ∀ v ∈ g.values, v < 64
  filled_eq_zero : g.fill = none → g.filled = 0

theorem formed_nothing : ({} : LastGroup).Formed := by
  constructor
  · intro v mem
    exact nomatch mem
  · intro _
    rfl

end LastGroup

/-- Reading a last group takes its text as it stands. -/
theorem formed_readLast {g last : LastGroup} {offset : Nat} {text : List UInt8} (h : g.Formed)
    (read : readLast g offset text = .ok last) : last.Formed ∧ last.text = g.text ++ text := by
  induction text generalizing g offset with
  | nil =>
    obtain rfl := Except.ok.inj read
    exact ⟨h, (List.append_nil _).symm⟩
  | cons b rest ih =>
    rw [readLast] at read
    split at read
    · rename_i fill
      subst fill
      split at read
      · exact nomatch read
      · have next : LastGroup.Formed
            { g with fill := some (g.fill.getD offset), filled := g.filled + 1 } :=
          ⟨h.values_lt, nofun⟩
        obtain ⟨formed, whole⟩ := ih next read
        refine ⟨formed, whole.trans ?_⟩
        simp only [LastGroup.text, List.replicate_succ', List.append_assoc, List.cons_append,
          List.nil_append]
    · split at read
      · exact nomatch read
      · rename_i unfilled
        split at read
        · exact nomatch read
        · rename_i v found
          obtain ⟨small, rfl⟩ := symbol_of_value? found
          have values_lt : ∀ u ∈ g.values ++ [v], u < 64 := by
            intro u mem
            rcases List.mem_append.1 mem with before | here
            · exact h.values_lt u before
            · rwa [List.mem_singleton.1 here]
          have next : LastGroup.Formed { g with values := g.values ++ [v] } :=
            ⟨values_lt, h.filled_eq_zero⟩
          obtain ⟨formed, whole⟩ := ih next read
          refine ⟨formed, whole.trans ?_⟩
          have none : g.filled = 0 := h.filled_eq_zero unfilled
          simp only [LastGroup.text, none, List.map_append, List.map_cons, List.map_nil,
            List.replicate_zero, List.append_nil, List.append_assoc, List.cons_append,
            List.nil_append]

/-- Two bytes are made of the number that they make. -/
theorem bytes_of_pair (a b : UInt8) {n : Nat} (number : n = a.toNat * 256 + b.toNat) :
    [UInt8.ofNat (n / 0x100), UInt8.ofNat n] = [a, b] := by
  have first := a.toNat_lt
  have second := b.toNat_lt
  have high : UInt8.ofNat (n / 0x100) = a := ofNat_eq_of_mod (by omega)
  have low : UInt8.ofNat n = b := ofNat_eq_of_mod (by omega)
  rw [high, low]

/-- The last group is read as it was written. -/
theorem decodeLast_encode {bytes : List UInt8} (some : bytes ≠ []) (few : bytes.length ≤ 3)
    (offset : Nat) : decodeLast offset (encode bytes) = .ok bytes := by
  match bytes with
  | [] => exact absurd rfl some
  | [a] =>
    have first := a.toNat_lt
    have high : a.toNat / 4 < 64 := by omega
    have low : a.toNat % 4 * 16 < 64 := by omega
    have spare : a.toNat % 4 * 16 % 16 = 0 := by omega
    have again : (a.toNat / 4 * 64 + a.toNat % 4 * 16) / 16 = a.toNat := by omega
    simp [decodeLast, encode, readLast, value?_symbol, symbol_ne_pad, high, low, spare, again]
  | [a, b] =>
    have first := a.toNat_lt
    have second := b.toNat_lt
    obtain ⟨n, number⟩ : ∃ n, n = a.toNat * 256 + b.toNat := ⟨_, rfl⟩
    have high : n / 1024 < 64 := by omega
    have low : n % 16 * 4 < 64 := by omega
    have spare : n % 16 * 4 % 4 = 0 := by omega
    have both : ((n / 1024 * 64 + n / 16 % 64) * 64 + n % 16 * 4) / 4 = n := by omega
    have upper : ((n / 1024 * 64 + n / 16 % 64) * 64 + n % 16 * 4) / 1024 = n / 0x100 := by omega
    have read : decodeLast offset (encode [a, b])
        = .ok [UInt8.ofNat (n / 0x100), UInt8.ofNat n] := by
      simp [decodeLast, encode, readLast, value?_symbol, symbol_ne_pad, Nat.mod_lt, ← number, high,
        low, spare, both, upper]
    rw [read, bytes_of_pair a b number]
  | [a, b, c] =>
    have first := a.toNat_lt
    have second := b.toNat_lt
    have third := c.toNat_lt
    obtain ⟨n, number⟩ : ∃ n, n = (a.toNat * 256 + b.toNat) * 256 + c.toNat := ⟨_, rfl⟩
    have high : n / 262144 < 64 := by omega
    have again : ((n / 262144 * 64 + n / 4096 % 64) * 64 + n / 64 % 64) * 64 + n % 64 = n := by
      omega
    have read : decodeLast offset (encode [a, b, c])
        = .ok [UInt8.ofNat (n / 0x10000), UInt8.ofNat (n / 0x100), UInt8.ofNat n] := by
      simp [decodeLast, encode, readLast, value?_symbol, symbol_ne_pad, Nat.mod_lt, ← number, high,
        again]
    rw [read, bytes_of_group a b c number]
  | a :: b :: c :: d :: rest =>
    simp only [List.length_cons] at few
    omega

/-- Two numbers of which the second one ends in four spare bits are written as they were read. -/
theorem encode_single {w x : Nat} (first : w < 64) (second : x < 64) (spare : x % 16 = 0) :
    encode [UInt8.ofNat ((w * 64 + x) / 16)] = [symbol w, symbol x, pad, pad] := by
  have number : (UInt8.ofNat ((w * 64 + x) / 16)).toNat = (w * 64 + x) / 16 := by
    rw [UInt8.toNat_ofNat']
    omega
  have one : (w * 64 + x) / 16 / 4 = w := by omega
  have two : (w * 64 + x) / 16 % 4 * 16 = x := by omega
  rw [encode, number, one, two]

/-- Three numbers of which the last one ends in two spare bits are written as they were read. -/
theorem encode_pair {w x y n : Nat} (first : w < 64) (second : x < 64) (third : y < 64)
    (spare : y % 4 = 0) (number : n = (w * 64 + x) * 64 + y) :
    encode [UInt8.ofNat (n / 1024), UInt8.ofNat (n / 4)] = [symbol w, symbol x, symbol y, pad] := by
  have both : (UInt8.ofNat (n / 1024)).toNat * 256 + (UInt8.ofNat (n / 4)).toNat = n / 4 := by
    rw [UInt8.toNat_ofNat', UInt8.toNat_ofNat']
    omega
  have one : n / 4 / 1024 = w := by omega
  have two : n / 4 / 16 % 64 = x := by omega
  have three : n / 4 % 16 * 4 = y := by omega
  rw [encode, both, one, two, three]

/-- A last group that is read is what is written for its bytes. -/
theorem encode_of_decodeLast {offset : Nat} {text bytes : List UInt8} (few : text.length ≤ 4)
    (read : decodeLast offset text = .ok bytes) : text = encode bytes := by
  rw [decodeLast] at read
  split at read
  · exact nomatch read
  · rename_i g made
    obtain ⟨formed, whole⟩ := formed_readLast LastGroup.formed_nothing made
    have whole : g.text = text := whole.trans (List.nil_append text)
    have length : g.values.length + g.filled = text.length := by
      rw [← whole, LastGroup.text, List.length_append, List.length_map, List.length_replicate]
    have small := formed.values_lt
    split at read
    · exact nomatch read
    · split at read
      · exact nomatch read
      · have full : g.values.length + g.filled = 4 := by omega
        rw [← whole, LastGroup.text]
        -- as many symbols as there are, so much fill
        split at read
        · rename_i w x values
          rw [values] at full small ⊢
          have filled : g.filled = 2 := Nat.add_left_cancel full
          split at read
          · exact nomatch read
          · rename_i spare
            obtain rfl := Except.ok.inj read
            rw [filled, encode_single (small w (by simp)) (small x (by simp)) (by omega)]
            rfl
        · rename_i w x y values
          rw [values] at full small ⊢
          have filled : g.filled = 1 := Nat.add_left_cancel full
          split at read
          · exact nomatch read
          · rename_i spare
            obtain rfl := Except.ok.inj read
            rw [filled, encode_pair (small w (by simp)) (small x (by simp)) (small y (by simp))
              (by omega) rfl]
            rfl
        · rename_i w x y z values
          rw [values] at full small ⊢
          have filled : g.filled = 0 := Nat.add_left_cancel full
          obtain rfl := Except.ok.inj read
          rw [filled, encode_group (small w (by simp)) (small x (by simp)) (small y (by simp))
            (small z (by simp)) rfl]
          rfl
        · exact nomatch read

/-! ## Whole texts -/

/-- The bytes are read from the text that is written for them. -/
theorem decode_encode (bytes : List UInt8) : decode (encode bytes) = .ok bytes := by
  have length := length_encode bytes
  have straight : strayByte? (encode bytes) = none := by
    unfold strayByte?
    rw [if_neg (by omega)]
  rw [decode, straight]
  dsimp only
  by_cases none : bytes = []
  · subst none
    rfl
  · have some : 0 < bytes.length := List.length_pos_iff.2 none
    -- the last group holds the last one to three bytes
    obtain ⟨n, whole⟩ : ∃ n, n = (bytes.length - 1) / 3 * 3 := ⟨_, rfl⟩
    obtain ⟨first, last, rfl, fits⟩ : ∃ first last, bytes = first ++ last ∧ first.length = n :=
      ⟨bytes.take n, bytes.drop n, (List.take_append_drop n bytes).symm,
        List.length_take_of_le (by omega)⟩
    rw [List.length_append] at whole some length
    have groups : first.length % 3 = 0 := by omega
    have offset : (encode first).length = ((encode (first ++ last)).length - 1) / 4 * 4 := by
      rw [length_encode, length]
      omega
    have rest : last ≠ [] := by
      intro empty
      subst empty
      simp only [List.length_nil] at whole some
      omega
    have filled : (encode (first ++ last)).isEmpty = false := by
      rw [List.isEmpty_eq_false_iff]
      intro empty
      rw [empty, List.length_nil] at length
      omega
    rw [filled, if_neg Bool.false_ne_true, ← offset, encode_append groups, List.take_left,
      List.drop_left, decodeGroups_encode groups]
    dsimp only
    rw [decodeLast_encode rest (by omega)]

/-- A text that is read is what is written for its bytes. -/
theorem encode_of_decode {text bytes : List UInt8} (read : decode text = .ok bytes) :
    text = encode bytes := by
  rw [decode] at read
  split at read
  · exact nomatch read
  · split at read
    · rename_i empty
      obtain rfl := Except.ok.inj read
      exact List.isEmpty_iff.1 empty
    · dsimp only at read
      split at read
      · exact nomatch read
      · rename_i first groups
        split at read
        · exact nomatch read
        · rename_i last rest
          obtain rfl := Except.ok.inj read
          obtain ⟨n, offset⟩ : ∃ n, n = (text.length - 1) / 4 * 4 := ⟨_, rfl⟩
          rw [← offset] at groups rest
          have length : (text.take n).length = n := List.length_take_of_le (by omega)
          obtain ⟨front, whole⟩ := encode_of_decodeGroups (by omega) groups
          have back := encode_of_decodeLast (by rw [List.length_drop]; omega) rest
          rw [encode_append whole, ← front, ← back, List.take_append_drop]

/-- A text stands for some bytes just when it is the one that is written for them. -/
theorem decode_eq_ok_iff {text bytes : List UInt8} :
    decode text = .ok bytes ↔ text = encode bytes := by
  constructor
  · exact encode_of_decode
  · rintro rfl
    exact decode_encode bytes

end CastHub.Base64
