import CastHub.Proofs.Base64
import CastHub.Proofs.Framing
import CastHub.Surface
/-!
# Surface handles and their texts

A handle has 64 bits and a symbol of its text six, so ten symbols leave four bits over. These are
the upper ones of an eleventh symbol, whose two lower bits say nothing, and one `=` fills up the
last group of four. Read as a number, the eleven symbols are four times the handle.

Each handle has one text only, and no other text is taken for a handle.

* `Base64.letter` : the alphabet as it is printed in the standard;
* `number`, `number_bytes`, `bytes_number` : a handle and its eight bytes;
* `toList_encode` : the text of a handle, letter by letter;
* `IsCanonical`, `isCanonical_iff` : the texts of handles, told by their form;
* `decode_eq_ok_iff` : reading is the inverse of writing;
* `texts_are_handles` : all this together.
-/

namespace CastHub

namespace Base64

/-! ## The alphabet -/

/-- The alphabet. -/
def letters : List Char := "ABCDEFGHIJKLMNOPQRSTUVWXYZabcdefghijklmnopqrstuvwxyz0123456789+/".toList

/-- The letter for a number below 64. -/
def letter (n : Nat) : Char := letters.getD n '='

/-- A symbol is the byte of its letter. -/
theorem ofNat_toNat_symbol {n : Nat} (small : n < 64) : Char.ofNat (symbol n).toNat = letter n := by
  have table : ∀ k : Fin 64, Char.ofNat (symbol k.val).toNat = letter k.val := by decide +kernel
  exact table ⟨n, small⟩

/-- Symbols are ASCII. -/
theorem toNat_symbol_lt (n : Nat) : (symbol n).toNat < 128 := by
  unfold symbol
  split_ifs
  · rw [UInt8.toNat_ofNat']
    omega
  · rw [UInt8.toNat_ofNat']
    omega
  · rw [UInt8.toNat_ofNat']
    omega
  · decide
  · decide

/-- Whatever is written is ASCII. -/
theorem toNat_lt_of_mem_encode {bytes : List UInt8} {b : UInt8} (mem : b ∈ encode bytes) :
    b.toNat < 128 := by
  have fill : pad.toNat < 128 := by decide
  fun_induction encode bytes with
  | case1 x y z rest n ih =>
    simp only [List.mem_cons] at mem
    rcases mem with rfl | rfl | rfl | rfl | later
    · exact toNat_symbol_lt _
    · exact toNat_symbol_lt _
    · exact toNat_symbol_lt _
    · exact toNat_symbol_lt _
    · exact ih later
  | case2 x y n =>
    simp only [List.mem_cons, List.not_mem_nil, or_false] at mem
    rcases mem with rfl | rfl | rfl | rfl
    · exact toNat_symbol_lt _
    · exact toNat_symbol_lt _
    · exact toNat_symbol_lt _
    · exact fill
  | case3 x =>
    simp only [List.mem_cons, List.not_mem_nil, or_false] at mem
    rcases mem with rfl | rfl | rfl | rfl
    · exact toNat_symbol_lt _
    · exact toNat_symbol_lt _
    · exact fill
    · exact fill
  | case4 => exact absurd mem List.not_mem_nil

end Base64

namespace Surface

/-! ## Eight bytes -/

/-- The number that some bytes make, highest first. -/
def number (bytes : List UInt8) : Nat := bytes.foldl (fun n b => n * 256 + b.toNat) 0

theorem bytes_eq (handle : UInt64) : bytes handle =
    [UInt8.ofNat (handle.toNat / 256 ^ 7), UInt8.ofNat (handle.toNat / 256 ^ 6),
      UInt8.ofNat (handle.toNat / 256 ^ 5), UInt8.ofNat (handle.toNat / 256 ^ 4),
      UInt8.ofNat (handle.toNat / 256 ^ 3), UInt8.ofNat (handle.toNat / 256 ^ 2),
      UInt8.ofNat (handle.toNat / 256), UInt8.ofNat handle.toNat] := by
  simp [bytes, List.range_succ, Nat.shiftRight_eq_div_pow]

/-- The bytes of a handle make up the handle. -/
theorem number_bytes (handle : UInt64) : number (bytes handle) = handle.toNat := by
  have bound := handle.toNat_lt
  rw [bytes_eq, number]
  simp only [List.foldl_cons, List.foldl_nil, UInt8.toNat_ofNat']
  omega

/-- Eight bytes are those of the handle that they make up. -/
theorem bytes_number {text : List UInt8} (eight : text.length = 8) :
    bytes (UInt64.ofNat (number text)) = text := by
  match text, eight with
  | [a, b, c, d, e, f, g, h], _ =>
    have a_lt := a.toNat_lt
    have b_lt := b.toNat_lt
    have c_lt := c.toNat_lt
    have d_lt := d.toNat_lt
    have e_lt := e.toNat_lt
    have f_lt := f.toNat_lt
    have g_lt := g.toNat_lt
    have h_lt := h.toNat_lt
    have bound : number [a, b, c, d, e, f, g, h] < 2 ^ 64 := by
      simp only [number, List.foldl_cons, List.foldl_nil]
      omega
    rw [bytes_eq, UInt64.toNat_ofNat', Nat.mod_eq_of_lt bound]
    simp only [number, List.foldl_cons, List.foldl_nil, List.cons.injEq, and_true,
      ← UInt8.toNat_inj, UInt8.toNat_ofNat']
    refine ⟨?_, ?_, ?_, ?_, ?_, ?_, ?_, ?_⟩ <;> omega

/-! ## The text of a handle -/

/-- The bytes of a text that is made of ASCII bytes. -/
theorem toList_toUTF8_ofBytes {text : List UInt8} (plain : ∀ b ∈ text, b.toNat < 128) :
    (String.ofList (text.map fun b => Char.ofNat b.toNat)).toUTF8.data.toList = text := by
  rw [Lines.toList_toUTF8, String.toList_ofList]
  induction text with
  | nil => rfl
  | cons b rest ih =>
    have here : String.utf8EncodeChar (Char.ofNat b.toNat) = [b] := by
      have table : ∀ k : Fin 128,
          String.utf8EncodeChar (Char.ofNat k.val) = [UInt8.ofNat k.val] := by decide
      have entry := table ⟨b.toNat, plain b (List.mem_cons_self ..)⟩
      rwa [UInt8.ofNat_toNat] at entry
    have later : ∀ c ∈ rest, c.toNat < 128 := fun c mem => plain c (List.mem_cons_of_mem _ mem)
    rw [List.map_cons, Lines.encode_cons, here, ih later]
    rfl

theorem toList_toUTF8_encode (handle : UInt64) :
    (encode handle).toUTF8.data.toList = Base64.encode (bytes handle) :=
  toList_toUTF8_ofBytes fun _ mem => Base64.toNat_lt_of_mem_encode mem

/-- The six bits of four times a handle that the letter at a place stands for. -/
def digit (handle : UInt64) (place : Nat) : Nat := 4 * handle.toNat / 64 ^ (10 - place) % 64

theorem digit_lt (handle : UInt64) (place : Nat) : digit handle place < 64 :=
  Nat.mod_lt _ (by decide)

/-- The eight bytes of a handle, in groups of three. -/
theorem bytes_eq_groups (handle : UInt64) {first second third : Nat}
    (upper : first = handle.toNat / 0x10000000000)
    (middle : second = handle.toNat / 0x10000 % 0x1000000)
    (lower : third = handle.toNat % 0x10000 * 4) : bytes handle =
    [UInt8.ofNat (first / 0x10000), UInt8.ofNat (first / 0x100), UInt8.ofNat first,
      UInt8.ofNat (second / 0x10000), UInt8.ofNat (second / 0x100), UInt8.ofNat second,
      UInt8.ofNat (third / 1024), UInt8.ofNat (third / 4)] := by
  rw [bytes_eq]
  simp only [List.cons.injEq, and_true, ← UInt8.toNat_inj, UInt8.toNat_ofNat']
  refine ⟨?_, ?_, ?_, ?_, ?_, ?_, ?_, ?_⟩ <;> omega

/-- The text of a handle, symbol by symbol. -/
theorem encode_bytes (handle : UInt64) : Base64.encode (bytes handle) =
    (List.range 11).map (fun i => Base64.symbol (digit handle i)) ++ [Base64.pad] := by
  have bound := handle.toNat_lt
  rw [bytes_eq_groups handle rfl rfl rfl,
    Base64.encode_group (digit_lt handle 0) (digit_lt handle 1) (digit_lt handle 2)
      (digit_lt handle 3) (by unfold digit; omega),
    Base64.encode_group (digit_lt handle 4) (digit_lt handle 5) (digit_lt handle 6)
      (digit_lt handle 7) (by unfold digit; omega),
    Base64.encode_pair (digit_lt handle 8) (digit_lt handle 9) (digit_lt handle 10)
      (by unfold digit; omega) (by unfold digit; omega)]
  rfl

/-- The text of a handle, letter by letter. -/
theorem toList_encode (handle : UInt64) : (encode handle).toList =
    (List.range 11).map (fun i => Base64.letter (digit handle i)) ++ ['='] := by
  have letters : ∀ i, Char.ofNat (Base64.symbol (digit handle i)).toNat
      = Base64.letter (digit handle i) :=
    fun i => Base64.ofNat_toNat_symbol (digit_lt handle i)
  rw [encode, String.toList_ofList, encode_bytes, List.map_append, List.map_map]
  refine congrArg₂ (· ++ ·) (List.map_congr_left fun i _ => letters i) ?_
  rfl

/-! ## Reading -/

/-- Texts whose bytes are the same are the same. -/
theorem eq_of_toList_toUTF8 {text other : String}
    (same : text.toUTF8.data.toList = other.toUTF8.data.toList) : text = other := by
  rw [Lines.toList_toUTF8, Lines.toList_toUTF8] at same
  have read := Lines.fromUTF8?_encode text.toList
  rw [same, Lines.fromUTF8?_encode, String.ofList_toList, String.ofList_toList] at read
  exact (Option.some.inj read).symm

/-- Reading is the inverse of writing: a text is taken for a handle just when it is the text of
it. -/
theorem decode_eq_ok_iff {text : String} {handle : UInt64} :
    decode text = .ok handle ↔ text = encode handle := by
  constructor
  · intro read
    rw [decode] at read
    split at read
    · exact nomatch read
    · rename_i eight made
      split at read
      · rename_i length
        obtain rfl := Except.ok.inj read
        apply eq_of_toList_toUTF8
        have handle_bytes : bytes (UInt64.ofNat (number eight)) = eight := bytes_number length
        show _ = (encode (UInt64.ofNat (number eight))).toUTF8.data.toList
        rw [toList_toUTF8_encode, handle_bytes]
        exact Base64.decode_eq_ok_iff.1 made
      · exact nomatch read
  · rintro rfl
    have length : (bytes handle).length = 8 := by rw [bytes_eq]; rfl
    have back : (bytes handle).foldl (fun n b => n * 256 + b.toNat) 0 = handle.toNat :=
      number_bytes handle
    rw [decode, toList_toUTF8_encode, Base64.decode_encode]
    dsimp only
    rw [if_pos length, back, UInt64.ofNat_toNat]

/-! ## The form of a text -/

/-- The texts that the standard has for eight bytes: eleven letters of the alphabet, of which the
last one ends in two zero bits, and one `=`. -/
def IsCanonical (text : String) : Prop :=
  ∃ digits : List Nat, digits.length = 11 ∧ (∀ d ∈ digits, d < 64)
    ∧ digits.getLastD 0 % 4 = 0 ∧ text.toList = digits.map Base64.letter ++ ['=']

/-- Eleven digits of which the last one ends in two zero bits are those of a handle. -/
theorem exists_digits {digits : List Nat} (eleven : digits.length = 11)
    (small : ∀ d ∈ digits, d < 64) (spare : digits.getLastD 0 % 4 = 0) :
    ∃ handle, (List.range 11).map (digit handle) = digits := by
  match digits, eleven with
  | [a, b, c, d, e, f, g, h, i, j, k], _ =>
    simp only [List.forall_mem_cons] at small
    obtain ⟨a_lt, b_lt, c_lt, d_lt, e_lt, f_lt, g_lt, h_lt, i_lt, j_lt, k_lt, -⟩ := small
    obtain ⟨n, sum⟩ : ∃ n, n = ((((((((((a * 64 + b) * 64 + c) * 64 + d) * 64 + e) * 64 + f) * 64
      + g) * 64 + h) * 64 + i) * 64 + j) * 64 + k) := ⟨_, rfl⟩
    have spare : k % 4 = 0 := spare
    have four : 4 * (UInt64.ofNat (n / 4)).toNat = n := by
      rw [UInt64.toNat_ofNat']
      omega
    refine ⟨UInt64.ofNat (n / 4), ?_⟩
    show [digit _ 0, digit _ 1, digit _ 2, digit _ 3, digit _ 4, digit _ 5, digit _ 6, digit _ 7,
      digit _ 8, digit _ 9, digit _ 10] = _
    unfold digit
    rw [four]
    simp only [List.cons.injEq, and_true]
    refine ⟨?_, ?_, ?_, ?_, ?_, ?_, ?_, ?_, ?_, ?_, ?_⟩ <;> omega

/-- The texts of that form are those of handles. -/
theorem isCanonical_iff {text : String} : IsCanonical text ↔ ∃ handle, text = encode handle := by
  constructor
  · rintro ⟨digits, eleven, small, spare, form⟩
    obtain ⟨handle, rfl⟩ := exists_digits eleven small spare
    refine ⟨handle, String.toList_inj.1 ?_⟩
    rw [form, toList_encode, List.map_map]
    rfl
  · rintro ⟨handle, rfl⟩
    refine ⟨(List.range 11).map (digit handle), by simp, ?_, ?_, ?_⟩
    · intro d mem
      obtain ⟨i, -, rfl⟩ := List.mem_map.1 mem
      exact digit_lt handle i
    · show digit handle 10 % 4 = 0
      unfold digit
      omega
    · rw [toList_encode, List.map_map]
      rfl

/-- **A text stands for a handle just when it is the one text of that handle.** For every text and
every 64-bit number: the text is read as that number if and only if it is what is written for it. A
text is refused if and only if it is not of the form that the standard has for eight bytes. And what
is written for a handle are the eleven digits, to the base 64, of four times the handle, as letters
of the alphabet, and one `=`. -/
theorem texts_are_handles (text : String) (handle : UInt64) :
    (decode text = .ok handle ↔ text = encode handle)
      ∧ ((∃ refusal, decode text = .error refusal) ↔ ¬ IsCanonical text)
      ∧ (encode handle).toList = (List.range 11).map (fun place =>
          Base64.letter (4 * handle.toNat / 64 ^ (10 - place) % 64)) ++ ['='] := by
  refine ⟨decode_eq_ok_iff, ?_, toList_encode handle⟩
  rw [isCanonical_iff]
  constructor
  · rintro ⟨refusal, refused⟩ ⟨other, rfl⟩
    rw [decode_eq_ok_iff.2 rfl] at refused
    exact nomatch refused
  · intro strange
    cases read : decode text with
    | error refusal => exact ⟨refusal, rfl⟩
    | ok other => exact absurd ⟨other, decode_eq_ok_iff.1 read⟩ strange

end Surface

end CastHub
