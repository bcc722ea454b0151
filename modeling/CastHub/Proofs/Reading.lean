import CastHub.Json.Reader
import Mathlib.Data.List.Basic
import Mathlib.Data.List.TakeDrop
/-!
# What was written is read back

`JsonTree.write` writes a tree without blanks, and `JsonTree.parse?` reads texts. Reading what was
written gives the tree back, whatever it holds: strings of any characters, keys in any order and any
number of times, numbers with all their digits. Only the numbers must be numbers: a tree is proper
when each of its numerals has digits where the grammar wants them.

* `Numeral.IsProper` : a number as the grammar has it; that of an integer is proper
  (`Numeral.isProper_ofInt`);
* `JsonTree.IsProper` : a tree whose numerals are proper;
* `JsonTree.EndsNumber` : what may follow a number. After a value always comes one of three signs or
  nothing, so it holds wherever a value ends;
* `JsonTree.readNumeral_write`, `JsonTree.readString_write` : numbers and strings are read back;
* `JsonTree.readValue_write` : values are, with fuel for each character that they take;
* `JsonTree.parse?_render` : whole texts are.
-/

namespace CastHub

/-! ## Proper numbers -/

/-- Digits, and at least one. -/
def Numeral.AreDigits (digits : List Char) : Prop := digits ≠ [] ∧ ∀ c ∈ digits, c.isDigit = true

/-- A number as the grammar has it: a point is followed by digits, so is an exponent's sign, and a
zero before the point stands alone. -/
structure Numeral.IsProper (n : Numeral) : Prop where
  whole : AreDigits n.whole
  noZero : ∀ digit digits, n.whole ≠ '0' :: digit :: digits
  fraction : ∀ digits, n.fraction = some digits → AreDigits digits
  exponent : ∀ minus digits, n.exponent = some (minus, digits) → AreDigits digits

namespace Numeral

/-- The digits of a positive number do not begin with a zero. -/
theorem head?_toDigits {n : Nat} (positive : 0 < n) : (Nat.toDigits 10 n).head? ≠ some '0' := by
  induction n using Nat.strongRecOn with
  | ind n ih =>
    by_cases small : n < 10
    · rw [Nat.toDigits_of_lt_base small]
      intro zero
      have table : ∀ d : Fin 10, 0 < d.val → Nat.digitChar d.val ≠ '0' := by decide
      exact table ⟨n, small⟩ positive (Option.some.inj zero)
    · rw [Nat.toDigits_of_base_le (by decide) (by omega), List.head?_append_of_ne_nil _
        Nat.toDigits_ne_nil]
      exact ih (n / 10) (by omega) (by omega)

/-- The text of an integer is proper. -/
theorem isProper_ofInt (n : Int) : (ofInt n).IsProper where
  whole :=
    ⟨Nat.toDigits_ne_nil, fun _ mem => Nat.isDigit_of_mem_toDigits (by decide) (Nat.le_refl 10) mem⟩
  noZero := by
    intro digit digits same
    have same : Nat.toDigits 10 n.natAbs = '0' :: digit :: digits := same
    by_cases zero : n.natAbs = 0
    · rw [zero] at same
      cases same
    · exact head?_toDigits (Nat.pos_of_ne_zero zero) (by rw [same]; rfl)
  fraction := fun _ none => nomatch none
  exponent := fun _ _ none => nomatch none

end Numeral

namespace JsonTree

/-- A tree whose numbers are proper. -/
inductive IsProper : JsonTree → Prop
  | null : IsProper .null
  | bool (b : Bool) : IsProper (.bool b)
  | number {n : Numeral} (proper : n.IsProper) : IsProper (.number n)
  | string (s : Option String) : IsProper (.string s)
  | array {items : List JsonTree} (each : ∀ item ∈ items, IsProper item) : IsProper (.array items)
  | object {fields : List (Option String × JsonTree)} (each : ∀ f ∈ fields, IsProper f.2) :
      IsProper (.object fields)

/-! ## Numbers -/

/-- What may follow a number: nothing that would go on with it. -/
def EndsNumber (rest : List Char) : Prop :=
  ∀ c ∈ rest.head?, c.isDigit = false ∧ c ≠ '.' ∧ c ≠ 'e' ∧ c ≠ 'E'

/-- Digits are split off from what is none. -/
theorem splitDigits_append {digits rest : List Char} (each : ∀ c ∈ digits, c.isDigit = true)
    (other : ∀ c ∈ rest.head?, c.isDigit = false) :
    splitDigits (digits ++ rest) = (digits, rest) := by
  unfold splitDigits
  rw [List.span_eq_takeWhile_dropWhile, List.takeWhile_append_of_pos each,
    List.dropWhile_append_of_pos each]
  cases rest with
  | nil => simp
  | cons c rest =>
    have stop := other c rfl
    simp [stop]

/-- A number's exponent, then `rest`. -/
def writeExponent (exponent : Option (Bool × List Char)) (rest : List Char) : List Char :=
  match exponent with
  | none => rest
  | some (minus, digits) => 'e' :: ((if minus then ['-'] else []) ++ digits ++ rest)

/-- A number's fraction, then `rest`. -/
def writeFraction (fraction : Option (List Char)) (rest : List Char) : List Char :=
  match fraction with
  | none => rest
  | some digits => '.' :: (digits ++ rest)

theorem write_numeral (n : Numeral) (rest : List Char) :
    n.write rest = (if n.negative then ['-'] else []) ++ n.whole
      ++ writeFraction n.fraction (writeExponent n.exponent rest) := by
  unfold Numeral.write writeFraction writeExponent
  rfl

theorem readExponent_append {minus : Bool} {digits rest : List Char}
    (proper : Numeral.AreDigits digits) (other : ∀ c ∈ rest.head?, c.isDigit = false) :
    readExponent ((if minus then ['-'] else []) ++ digits ++ rest)
      = some ((minus, digits), rest) := by
  obtain ⟨some, each⟩ := proper
  have split := splitDigits_append each other
  obtain ⟨d, ds, rfl⟩ := List.exists_cons_of_ne_nil some
  have digit := each d (List.mem_cons_self ..)
  cases minus with
  | true =>
    show readExponent ('-' :: (d :: ds ++ rest)) = _
    unfold readExponent
    simp only [split]
  | false =>
    have plus : d ≠ '+' := fun same => absurd digit (same ▸ by decide)
    have minus : d ≠ '-' := fun same => absurd digit (same ▸ by decide)
    show readExponent (d :: (ds ++ rest)) = _
    unfold readExponent
    split
    rename_i sign text found
    have signless : (false, d :: (ds ++ rest)) = (sign, text) := by
      rw [← found]
      split
      · exact absurd (List.cons.inj ‹_›).1 plus
      · exact absurd (List.cons.inj ‹_›).1 minus
      · rfl
    cases signless
    have split : splitDigits (d :: (ds ++ rest)) = (d :: ds, rest) := split
    rw [split]

theorem readExponent?_write {exponent : Option (Bool × List Char)} {rest : List Char}
    (proper : ∀ minus digits, exponent = some (minus, digits) → Numeral.AreDigits digits)
    (ends : EndsNumber rest) :
    readExponent? (writeExponent exponent rest) = some (exponent, rest) := by
  cases exponent with
  | none =>
    cases rest with
    | nil => rfl
    | cons c rest =>
      obtain ⟨-, -, e, E⟩ := ends c rfl
      show readExponent? (c :: rest) = _
      unfold readExponent?
      split
      · exact absurd (List.cons.inj ‹_›).1 e
      · exact absurd (List.cons.inj ‹_›).1 E
      · rfl
  | some e =>
    obtain ⟨minus, digits⟩ := e
    have read : readExponent ((if minus then ['-'] else []) ++ digits ++ rest) = _ :=
      readExponent_append (proper minus digits rfl) fun c mem => (ends c mem).1
    show (readExponent _).map _ = _
    rw [read]
    rfl

/-- An exponent cannot be taken for more digits of what stands before it. -/
theorem head?_writeExponent {exponent : Option (Bool × List Char)} {rest : List Char}
    (ends : EndsNumber rest) :
    ∀ c ∈ (writeExponent exponent rest).head?, c.isDigit = false ∧ c ≠ '.' := by
  cases exponent with
  | none => exact fun c mem => ⟨(ends c mem).1, (ends c mem).2.1⟩
  | some e =>
    rintro c ⟨⟩
    decide

theorem readFraction?_write {fraction : Option (List Char)} {rest : List Char}
    (proper : ∀ digits, fraction = some digits → Numeral.AreDigits digits)
    (ends : ∀ c ∈ rest.head?, c.isDigit = false ∧ c ≠ '.') :
    readFraction? (writeFraction fraction rest) = some (fraction, rest) := by
  cases fraction with
  | none =>
    cases rest with
    | nil => rfl
    | cons c rest =>
      show readFraction? (c :: rest) = _
      unfold readFraction?
      split
      · exact absurd (List.cons.inj ‹_›).1 (ends c rfl).2
      · rfl
  | some digits =>
    obtain ⟨some, each⟩ := proper digits rfl
    have split := splitDigits_append each fun c mem => (ends c mem).1
    show readFraction? ('.' :: (digits ++ rest)) = _
    unfold readFraction?
    simp only [split]

theorem head?_writeFraction {fraction : Option (List Char)} {rest : List Char}
    (ends : ∀ c ∈ rest.head?, c.isDigit = false) :
    ∀ c ∈ (writeFraction fraction rest).head?, c.isDigit = false := by
  cases fraction with
  | none => exact ends
  | some digits =>
    rintro c ⟨⟩
    decide

theorem readMagnitude_write {n : Numeral} (proper : n.IsProper) {rest : List Char}
    (ends : EndsNumber rest) :
    readMagnitude n.negative (n.whole ++ writeFraction n.fraction (writeExponent n.exponent rest))
      = some (n, rest) := by
  have after : ∀ c ∈ (writeFraction n.fraction (writeExponent n.exponent rest)).head?,
      c.isDigit = false :=
    head?_writeFraction fun c mem => (head?_writeExponent ends c mem).1
  have split := splitDigits_append proper.whole.2 after
  unfold readMagnitude
  rw [split]
  split
  · rename_i none
    exact absurd (Prod.mk.inj none).1 proper.whole.1
  · rename_i zero
    exact absurd (Prod.mk.inj zero).1 (proper.noZero _ _)
  · rename_i same
    cases same
    simp only [readFraction?_write proper.fraction (head?_writeExponent ends),
      readExponent?_write proper.exponent ends, Option.bind_eq_bind, Option.bind_some]

/-- A number is read back. -/
theorem readNumeral_write {n : Numeral} (proper : n.IsProper) {rest : List Char}
    (ends : EndsNumber rest) : readNumeral (n.write rest) = some (n, rest) := by
  have magnitude := readMagnitude_write proper ends
  rw [write_numeral]
  cases sign : n.negative with
  | true =>
    rw [sign] at magnitude
    exact magnitude
  | false =>
    rw [sign] at magnitude
    obtain ⟨d, ds, whole⟩ := List.exists_cons_of_ne_nil proper.whole.1
    have digit := proper.whole.2 d (by rw [whole]; exact List.mem_cons_self ..)
    have minus : d ≠ '-' := fun same => absurd digit (same ▸ by decide)
    rw [whole] at magnitude ⊢
    show readNumeral (d :: (ds ++ _)) = _
    unfold readNumeral
    split
    · exact absurd (List.cons.inj ‹_›).1 minus
    · exact magnitude

/-! ## Strings -/

/-- A string is read back, also one that stands for no characters. -/
theorem readString_write (s : Option String) (rest : List Char) :
    readString (writeString s rest) = some (s, rest) := by
  cases s with
  | none => rfl
  | some s =>
    show (Quoted.read (Quoted.write s.toList rest)).map _ = _
    rw [Quoted.read_write]
    simp

/-! ## How long texts are -/

theorem length_writeExponent (exponent : Option (Bool × List Char)) (rest : List Char) :
    rest.length ≤ (writeExponent exponent rest).length := by
  cases exponent with
  | none => exact Nat.le_refl _
  | some e => simp [writeExponent]; omega

theorem length_writeFraction (fraction : Option (List Char)) (rest : List Char) :
    rest.length ≤ (writeFraction fraction rest).length := by
  cases fraction with
  | none => exact Nat.le_refl _
  | some digits => simp [writeFraction]; omega

theorem length_write_numeral {n : Numeral} (proper : n.IsProper) (rest : List Char) :
    rest.length < (n.write rest).length := by
  have exponent := length_writeExponent n.exponent rest
  have fraction := length_writeFraction n.fraction (writeExponent n.exponent rest)
  have whole := List.length_pos_of_ne_nil proper.whole.1
  rw [write_numeral, List.length_append, List.length_append]
  omega

theorem length_writeString (s : Option String) (rest : List Char) :
    rest.length < (writeString s rest).length := by
  cases s with
  | none => simp [writeString]; omega
  | some s =>
    have quoted : ∀ chars, rest.length < (Quoted.write chars rest).length := by
      intro chars
      induction chars with
      | nil => exact Nat.lt_succ_self _
      | cons c chars ih =>
        show _ < (Quoted.escape c ++ Quoted.write chars rest).length
        rw [List.length_append]
        omega
    exact Nat.lt_succ_of_lt (quoted s.toList)

mutual

/-- A value takes at least one character. -/
theorem length_write {tree : JsonTree} (proper : tree.IsProper) (rest : List Char) :
    rest.length < (tree.write rest).length := by
  cases proper with
  | null => simp [write]; omega
  | bool b => cases b <;> (simp [write]; omega)
  | number proper => exact length_write_numeral proper rest
  | string s => exact length_writeString s rest
  | @array items each =>
    cases items with
    | nil => exact Nat.lt_add_of_pos_right (n := rest.length) (k := 2) (by decide)
    | cons item items => exact length_writeItems each rest
  | @object fields each =>
    cases fields with
    | nil => exact Nat.lt_add_of_pos_right (n := rest.length) (k := 2) (by decide)
    | cons field fields => exact length_writeFields each rest

theorem length_writeItems {items : List JsonTree} (proper : ∀ item ∈ items, item.IsProper)
    (rest : List Char) : rest.length < (writeItems items rest).length := by
  cases items with
  | nil => simp [writeItems]
  | cons item items =>
    have first := length_write (proper item (List.mem_cons_self ..)) (writeItems items rest)
    have others := length_writeItems (fun i mem => proper i (List.mem_cons_of_mem _ mem)) rest
    show _ < (write item _).length + 1
    omega

theorem length_writeFields {fields : List (Option String × JsonTree)}
    (proper : ∀ f ∈ fields, f.2.IsProper) (rest : List Char) :
    rest.length < (writeFields fields rest).length := by
  cases fields with
  | nil => simp [writeFields]
  | cons field fields =>
    obtain ⟨key, value⟩ := field
    have first :
        (writeFields fields rest).length < (value.write (writeFields fields rest)).length :=
      length_write (proper (key, value) (List.mem_cons_self ..)) _
    have others := length_writeFields (fun f mem => proper f (List.mem_cons_of_mem _ mem)) rest
    have name := length_writeString key (':' :: value.write (writeFields fields rest))
    rw [List.length_cons] at name
    show _ < (writeString key _).length + 1
    omega

end

/-! ## Values -/

/-- A number begins with a digit or a minus sign. -/
theorem write_numeral_eq_cons {n : Numeral} (proper : n.IsProper) (rest : List Char) :
    ∃ c text, n.write rest = c :: text ∧ (c = '-' ∨ c.isDigit = true) := by
  obtain ⟨d, ds, whole⟩ := List.exists_cons_of_ne_nil proper.whole.1
  have digit := proper.whole.2 d (by rw [whole]; exact List.mem_cons_self ..)
  rw [write_numeral, whole]
  cases n.negative with
  | true => exact ⟨_, _, rfl, .inl rfl⟩
  | false => exact ⟨_, _, rfl, .inr digit⟩

/-- No number begins with anything else. -/
theorem ne_of_sign {c d : Char} (sign : c = '-' ∨ c.isDigit = true) (minus : d ≠ '-')
    (digit : d.isDigit = false) : c ≠ d := by
  rintro rfl
  rcases sign with rfl | sign
  · exact minus rfl
  · rw [sign] at digit
    cases digit

/-- A value begins with a character that is neither a blank nor a closing bracket. -/
theorem write_eq_cons {tree : JsonTree} (proper : tree.IsProper) (rest : List Char) :
    ∃ c text, tree.write rest = c :: text ∧ isBlank c = false ∧ c ≠ ']' := by
  cases proper with
  | null => exact ⟨_, _, rfl, by decide, by decide⟩
  | bool b => cases b <;> exact ⟨_, _, rfl, by decide, by decide⟩
  | number proper =>
    obtain ⟨c, text, written, sign⟩ := write_numeral_eq_cons proper rest
    refine ⟨c, text, written, ?_, ne_of_sign sign (by decide) (by decide)⟩
    have space := ne_of_sign sign (d := ' ') (by decide) (by decide)
    have feed := ne_of_sign sign (d := '\n') (by decide) (by decide)
    have tab := ne_of_sign sign (d := '\t') (by decide) (by decide)
    have back := ne_of_sign sign (d := '\r') (by decide) (by decide)
    simp [isBlank, space, feed, tab, back]
  | string s => cases s <;> exact ⟨_, _, rfl, by decide, by decide⟩
  | @array items each => cases items <;> exact ⟨_, _, rfl, by decide, by decide⟩
  | @object fields each => cases fields <;> exact ⟨_, _, rfl, by decide, by decide⟩

theorem skipBlank_cons {c : Char} (text : List Char) (solid : isBlank c = false) :
    skipBlank (c :: text) = c :: text := by
  unfold skipBlank
  rw [List.dropWhile_cons_of_neg (by simp [solid])]

theorem skipBlank_write {tree : JsonTree} (proper : tree.IsProper) (rest : List Char) :
    skipBlank (tree.write rest) = tree.write rest := by
  obtain ⟨c, text, written, solid, -⟩ := write_eq_cons proper rest
  rw [written, skipBlank_cons text solid]

/-- What begins like a number is read as one. -/
theorem readValue_numeral {c : Char} {text : List Char} (sign : c = '-' ∨ c.isDigit = true)
    (fuel : Nat) :
    readValue (fuel + 1) (c :: text)
      = (readNumeral (c :: text)).map fun (n, rest) => (.number n, rest) := by
  unfold readValue
  split
  case h_7 => rfl
  all_goals
    rename_i starts
    exact absurd (List.cons.inj starts).1 (ne_of_sign sign (by decide) (by decide))

theorem readKey_write (key : Option String) {tree : JsonTree} (proper : tree.IsProper)
    (rest : List Char) :
    readKey (writeString key (':' :: tree.write rest)) = some (key, tree.write rest) := by
  unfold readKey
  rw [readString_write]
  show some (key, skipBlank (tree.write rest)) = _
  rw [skipBlank_write proper]

theorem endsNumber_nil : EndsNumber [] := fun _ none => nomatch none

theorem endsNumber_writeItems (items : List JsonTree) (rest : List Char) :
    EndsNumber (writeItems items rest) := by
  cases items <;> (rintro c ⟨⟩; decide)

theorem endsNumber_writeFields (fields : List (Option String × JsonTree)) (rest : List Char) :
    EndsNumber (writeFields fields rest) := by
  cases fields <;> (rintro c ⟨⟩; decide)

theorem writeString_eq_cons (s : Option String) (rest : List Char) :
    ∃ text, writeString s rest = '"' :: text := by
  cases s <;> exact ⟨_, rfl⟩

theorem readValue_string (s : Option String) (rest : List Char) (fuel : Nat) :
    readValue (fuel + 1) (writeString s rest) = some (.string s, rest) := by
  cases s with
  | none => rfl
  | some s =>
    show (Quoted.read (Quoted.write s.toList rest)).map _ = _
    rw [Quoted.read_write]
    simp

theorem readValue_array {c : Char} (text : List Char) (solid : isBlank c = false) (more : c ≠ ']')
    (fuel : Nat) :
    readValue (fuel + 1) ('[' :: c :: text)
      = (readItems fuel (c :: text)).map fun (items, rest) => (.array items, rest) := by
  simp only [readValue, skipBlank_cons text solid]
  split
  · exact absurd (List.cons.inj ‹_›).1 more
  · rfl

theorem readValue_object (key : Option String) (text : List Char) (fuel : Nat) :
    readValue (fuel + 1) ('\x7b' :: writeString key text)
      = (readFields fuel (writeString key text)).map
        fun (fields, rest) => (.object fields, rest) := by
  obtain ⟨text, written⟩ := writeString_eq_cons key text
  rw [written]
  rfl

mutual

/-- A value is read back. Fuel is needed for each character that it takes. -/
theorem readValue_write {tree : JsonTree} (proper : tree.IsProper) {rest : List Char}
    (ends : EndsNumber rest) {fuel : Nat}
    (enough : 2 * (tree.write rest).length ≤ fuel + 2 * rest.length) :
    readValue fuel (tree.write rest) = some (tree, rest) := by
  -- the fuel goes down at every step; the characters that are read pay for it twice
  have length := length_write proper rest
  cases fuel with
  | zero => omega
  | succ fuel =>
    cases proper with
    | null => rfl
    | bool b => cases b <;> rfl
    | number proper =>
      obtain ⟨c, text, written, sign⟩ := write_numeral_eq_cons proper rest
      have read := readNumeral_write proper ends
      show readValue _ (Numeral.write _ rest) = _
      rw [written] at read ⊢
      rw [readValue_numeral sign, read]
      rfl
    | string s => exact readValue_string s rest fuel
    | @array items each =>
      cases items with
      | nil => rfl
      | cons item items =>
        have enough : 2 * ((item.write (writeItems items rest)).length + 1)
            ≤ fuel + 1 + 2 * rest.length := enough
        have read : readItems fuel _ = _ := readItems_write each rest (by omega)
        -- no item begins with the bracket that would end the array
        obtain ⟨c, text, written, solid, more⟩ :=
          write_eq_cons (each item (List.mem_cons_self ..)) (writeItems items rest)
        show readValue _ ('[' :: item.write (writeItems items rest)) = _
        rw [written] at read ⊢
        rw [readValue_array text solid more, read]
        rfl
    | @object fields each =>
      cases fields with
      | nil => rfl
      | cons field fields =>
        obtain ⟨key, value⟩ := field
        have enough :
            2 * ((writeString key (':' :: value.write (writeFields fields rest))).length + 1)
            ≤ fuel + 1 + 2 * rest.length := enough
        have read : readFields fuel _ = _ := readFields_write each rest (by omega)
        show readValue _ ('\x7b' :: writeString key _) = _
        rw [readValue_object, read]
        rfl
termination_by fuel

/-- The items of an array are read back. -/
theorem readItems_write {item : JsonTree} {items : List JsonTree}
    (proper : ∀ i ∈ item :: items, i.IsProper) (rest : List Char) {fuel : Nat}
    (enough : 2 * (item.write (writeItems items rest)).length < fuel + 2 * rest.length) :
    readItems fuel (item.write (writeItems items rest)) = some (item :: items, rest) := by
  have one := proper item (List.mem_cons_self ..)
  have others : ∀ i ∈ items, i.IsProper := fun i mem => proper i (List.mem_cons_of_mem _ mem)
  have length := length_write one (writeItems items rest)
  have after := length_writeItems others rest
  cases fuel with
  | zero => omega
  | succ fuel =>
    unfold readItems
    rw [readValue_write one (endsNumber_writeItems items rest) (by omega)]
    cases items with
    | nil => rfl
    | cons next items =>
      have after : (writeItems (next :: items) rest).length
        = (next.write (writeItems items rest)).length + 1 := rfl
      have read : readItems fuel _ = _ := readItems_write others rest (by omega)
      show (readItems fuel (skipBlank (next.write (writeItems items rest)))).map _ = _
      rw [skipBlank_write (others next (List.mem_cons_self ..)), read]
      rfl
termination_by fuel

/-- The fields of an object are read back. -/
theorem readFields_write {key : Option String} {value : JsonTree}
    {fields : List (Option String × JsonTree)}
    (proper : ∀ f ∈ (key, value) :: fields, f.2.IsProper) (rest : List Char) {fuel : Nat}
    (enough : 2 * (writeString key (':' :: value.write (writeFields fields rest))).length
      < fuel + 2 * rest.length) :
    readFields fuel (writeString key (':' :: value.write (writeFields fields rest)))
      = some ((key, value) :: fields, rest) := by
  have one : value.IsProper := proper (key, value) (List.mem_cons_self ..)
  have others : ∀ f ∈ fields, f.2.IsProper := fun f mem => proper f (List.mem_cons_of_mem _ mem)
  have title := length_writeString key (':' :: value.write (writeFields fields rest))
  have length := length_write one (writeFields fields rest)
  have after := length_writeFields others rest
  rw [List.length_cons] at title
  cases fuel with
  | zero => omega
  | succ fuel =>
    unfold readFields
    rw [readKey_write key one]
    dsimp only
    rw [readValue_write one (endsNumber_writeFields fields rest) (by omega)]
    cases fields with
    | nil => rfl
    | cons next fields =>
      obtain ⟨name, second⟩ := next
      have after : (writeFields ((name, second) :: fields) rest).length
        = (writeString name (':' :: second.write (writeFields fields rest))).length + 1 := rfl
      have read : readFields fuel _ = _ := readFields_write others rest (by omega)
      obtain ⟨text, written⟩ :=
        writeString_eq_cons name (':' :: second.write (writeFields fields rest))
      show (readFields fuel (skipBlank (writeString name _))).map _ = _
      rw [written] at read ⊢
      rw [skipBlank_cons text (by decide), read]
      rfl
termination_by fuel

end

/-- **A text is read back** as the tree that it was written from. -/
theorem parse?_render {tree : JsonTree} (proper : tree.IsProper) :
    parse? tree.render = some tree := by
  have read : readValue (2 * (tree.write []).length + 2) (tree.write []) = some (tree, []) :=
    readValue_write proper endsNumber_nil (by omega)
  unfold parse? render
  simp only [String.toList_ofList]
  rw [skipBlank_write proper, read]
  rfl

end JsonTree

end CastHub
