import CastHub.Json.Tree
import CastHub.Proofs.Reading
import CastHub.Service.Lines
/-!
# Texts and lines

What makes a stream of bytes a stream of lines, both ways.

A stream in UTF-8 is cut at bytes, and its lines are the lines of the text that it stands for: the
bytes of a line feed and of a carriage return stand in no other character. And the texts of JSON
trees can be framed by line feeds: whatever they hold, no control character is ever written, so the
lines of a stream of them are those texts.

* `Lines.encode` : the bytes of characters;
* `Lines.split_encode` : the lines of bytes are those of the characters;
* `Lines.fromUTF8?_encode` : they are characters again;
* `JsonTree.isPrintable_write` : control characters are not written;
* `Lines.split_frames` : framed texts are split into themselves.
-/

namespace CastHub

namespace Lines

/-! ## Bytes and characters -/

/-- The bytes of characters. -/
def encode (text : List Char) : List UInt8 := text.flatMap String.utf8EncodeChar

theorem encode_cons (c : Char) (text : List Char) :
    encode (c :: text) = String.utf8EncodeChar c ++ encode text := List.flatMap_cons

/-- A byte below 128 stands for itself and in no other character. -/
theorem eq_of_mem_utf8EncodeChar {c : Char} {b : UInt8} (mem : b ∈ String.utf8EncodeChar c)
    (plain : b.toNat < 128) : c.toNat = b.toNat := by
  have value : c.val.toNat = c.toNat := rfl
  unfold String.utf8EncodeChar at mem
  dsimp only at mem
  rw [value] at mem
  split at mem
  · obtain rfl := List.mem_singleton.1 mem
    rw [UInt8.toNat_ofNat']
    omega
  · -- every byte of a longer character has its highest bit set
    split at mem
    · simp only [List.mem_cons, List.not_mem_nil, or_false] at mem
      rcases mem with rfl | rfl <;> (rw [UInt8.toNat_ofNat'] at plain; omega)
    · split at mem
      · simp only [List.mem_cons, List.not_mem_nil, or_false] at mem
        rcases mem with rfl | rfl | rfl <;> (rw [UInt8.toNat_ofNat'] at plain; omega)
      · simp only [List.mem_cons, List.not_mem_nil, or_false] at mem
        rcases mem with rfl | rfl | rfl | rfl <;> (rw [UInt8.toNat_ofNat'] at plain; omega)

/-- A line feed stands in no other character. -/
theorem feed_notMem {c : Char} (other : c ≠ '\n') : (10 : UInt8) ∉ String.utf8EncodeChar c :=
  fun mem => other (Char.toNat_inj.1 (eq_of_mem_utf8EncodeChar mem (by decide)))

/-- Neither does a carriage return. -/
theorem return_notMem {c : Char} (other : c ≠ '\r') : (13 : UInt8) ∉ String.utf8EncodeChar c :=
  fun mem => other (Char.toNat_inj.1 (eq_of_mem_utf8EncodeChar mem (by decide)))

/-! ## The lines of a stream -/

section Cut

variable {α : Type} [DecidableEq α] {feed back : α}

/-- A line goes on until there is a line feed. -/
theorem cut_append {text : List α} (solid : feed ∉ text) (rest : List α) :
    cut feed (text ++ rest) = (text ++ (cut feed rest).1, (cut feed rest).2) := by
  induction text with
  | nil => rfl
  | cons c text ih =>
    have other : c ≠ feed := Ne.symm (List.ne_of_not_mem_cons solid)
    rw [List.cons_append, cut, if_neg other, ih (List.not_mem_of_not_mem_cons solid)]
    rfl

/-- The first line of a text that has line feeds. -/
theorem split_of_feed {text line rest : List α} (h : cut feed text = (line, some rest)) :
    split feed back text = withoutReturn back line :: split feed back rest := by
  rw [split]
  split
  · rename_i same
    rw [h] at same
    cases same
    rfl
  · rename_i same
    rw [h] at same
    cases same

/-- The only line of a text that has none. -/
theorem split_of_end {text line : List α} (h : cut feed text = (line, none)) :
    split feed back text = if line = [] then [] else [line] := by
  rw [split]
  split
  · rename_i same
    rw [h] at same
    cases same
  · rename_i same
    rw [h] at same
    cases same
    rfl

end Cut

/-- Bytes are cut where their characters are. -/
theorem cut_encode (text : List Char) :
    cut 10 (encode text) = (encode (cut '\n' text).1, (cut '\n' text).2.map encode) := by
  induction text with
  | nil => rfl
  | cons c text ih =>
    rw [encode_cons, cut]
    by_cases feed : c = '\n'
    · subst feed
      rw [if_pos rfl]
      rfl
    · rw [cut_append (feed_notMem feed), ih, if_neg feed]
      simp only [encode_cons]

theorem encode_eq_nil_iff {text : List Char} : encode text = [] ↔ text = [] := by
  cases text with
  | nil => simp [encode]
  | cons c text => simp [encode_cons, String.utf8EncodeChar_ne_nil]

/-- The last byte of a line is a carriage return just when its last character is. -/
theorem withoutReturn_encode (line : List Char) :
    withoutReturn 13 (encode line) = encode (withoutReturn '\r' line) := by
  rcases List.eq_nil_or_concat line with rfl | ⟨first, c, rfl⟩
  · rfl
  · have bytes : encode (first ++ [c]) = encode first ++ String.utf8EncodeChar c := by
      simp [encode]
    unfold withoutReturn
    rw [List.concat_eq_append, List.getLast?_append_of_ne_nil _ (List.cons_ne_nil c []), bytes,
      List.getLast?_append_of_ne_nil _ String.utf8EncodeChar_ne_nil]
    by_cases back : c = '\r'
    · subst back
      show (if some 13 = some 13 then (encode first ++ [13]).dropLast else encode first ++ [13])
        = encode (if some '\r' = some '\r' then (first ++ ['\r']).dropLast else first ++ ['\r'])
      rw [if_pos rfl, if_pos rfl, List.dropLast_concat, List.dropLast_concat]
    · have other : (String.utf8EncodeChar c).getLast? ≠ some 13 := fun last =>
        return_notMem back (List.mem_of_getLast? last)
      rw [if_neg other, if_neg (by simpa using back), bytes]

/-- **The lines of a stream of bytes** are those of its characters. -/
theorem split_encode (text : List Char) :
    split 10 13 (encode text) = (split '\n' '\r' text).map encode := by
  induction h : text.length using Nat.strongRecOn generalizing text with
  | ind n ih =>
    subst h
    have bytes := cut_encode text
    cases found : cut '\n' text with
    | mk line rest =>
      rw [found] at bytes
      cases rest with
      | some rest =>
        rw [split_of_feed found, split_of_feed bytes, withoutReturn_encode,
          ih _ (length_of_cut found) rest rfl, List.map_cons]
      | none =>
        rw [split_of_end found, split_of_end bytes]
        simp only [encode_eq_nil_iff]
        split <;> rfl

/-- Bytes of characters are those characters. -/
theorem fromUTF8?_encode (text : List Char) :
    String.fromUTF8? ⟨(encode text).toArray⟩ = some (String.ofList text) := by
  have bytes : (⟨(encode text).toArray⟩ : ByteArray) = text.utf8Encode :=
    ByteArray.ext List.data_toByteArray.symm
  have valid : ByteArray.IsValidUTF8 ⟨(encode text).toArray⟩ := ⟨text, bytes⟩
  unfold String.fromUTF8?
  rw [dif_pos valid]
  refine congrArg some (String.toByteArray_inj.1 ?_)
  rw [String.toByteArray_ofList]
  exact bytes

/-- The bytes of a string are those of its characters. -/
theorem toList_toUTF8 (text : String) : text.toUTF8.data.toList = encode text.toList := by
  rw [String.toUTF8_eq_toByteArray, ← String.utf8Encode_toList]
  exact List.toList_data_toByteArray

end Lines

/-! ## What is written -/

/-- Characters that are not control characters. -/
def IsPrintable (text : List Char) : Prop := ∀ c ∈ text, 32 ≤ c.toNat

instance (text : List Char) : Decidable (IsPrintable text) :=
  List.decidableBAll (fun c : Char => 32 ≤ c.toNat) text

theorem isPrintable_cons {c : Char} {text : List Char} (first : 32 ≤ c.toNat)
    (h : IsPrintable text) : IsPrintable (c :: text) := List.forall_mem_cons.2 ⟨first, h⟩

theorem IsPrintable.append {a b : List Char} (ha : IsPrintable a) (hb : IsPrintable b) :
    IsPrintable (a ++ b) := List.forall_mem_append.2 ⟨ha, hb⟩

theorem IsPrintable.ite {p : Prop} [Decidable p] {a b : List Char} (ha : IsPrintable a)
    (hb : IsPrintable b) : IsPrintable (if p then a else b) := by
  split
  · exact ha
  · exact hb

theorem isPrintable_digits {digits : List Char} (h : Numeral.AreDigits digits) :
    IsPrintable digits := by
  intro c mem
  have digit := h.2 c mem
  have low : 48 ≤ c.val := by
    simp only [Char.isDigit, Bool.and_eq_true, decide_eq_true_eq] at digit
    exact digit.1
  exact Nat.le_trans (by decide) (UInt32.le_iff_toNat_le.1 low)

namespace Quoted

theorem hexDigit_ge {n : Nat} (h : n < 16) : 32 ≤ (hexDigit n).toNat := by
  have table : ∀ k : Fin 16, 32 ≤ (hexDigit k.val).toNat := by decide
  exact table ⟨n, h⟩

/-- No escaped character is a control character. -/
theorem isPrintable_escape (c : Char) : IsPrintable (escape c) := by
  have long : IsPrintable (if c.toNat < 32 then
      ['\\', 'u', '0', '0', hexDigit (c.toNat / 16), hexDigit (c.toNat % 16)] else [c]) := by
    split
    · rename_i small
      have high := hexDigit_ge (n := c.toNat / 16) (by omega)
      have low := hexDigit_ge (n := c.toNat % 16) (by omega)
      exact IsPrintable.append (a := ['\\', 'u', '0', '0']) (by decide)
        (isPrintable_cons high (isPrintable_cons low (by decide)))
    · rename_i large
      exact List.forall_mem_singleton.2 (Nat.le_of_not_lt large)
  -- there are seven short forms before that
  exact .ite (by decide) <| .ite (by decide) <| .ite (by decide) <| .ite (by decide) <|
    .ite (by decide) <| .ite (by decide) <| .ite (by decide) long

theorem isPrintable_write (chars : List Char) {rest : List Char} (h : IsPrintable rest) :
    IsPrintable (write chars rest) := by
  induction chars with
  | nil => exact isPrintable_cons (by decide) h
  | cons c chars ih => exact (isPrintable_escape c).append ih

end Quoted

namespace JsonTree

theorem isPrintable_writeString (s : Option String) {rest : List Char} (h : IsPrintable rest) :
    IsPrintable (writeString s rest) := by
  cases s with
  | some s => exact isPrintable_cons (by decide) (Quoted.isPrintable_write _ h)
  | none =>
    show IsPrintable (['"', '\\', 'u', 'd', '8', '0', '0', '"'] ++ rest)
    exact IsPrintable.append (by decide) h

theorem isPrintable_write_numeral {n : Numeral} (proper : n.IsProper) {rest : List Char}
    (h : IsPrintable rest) : IsPrintable (n.write rest) := by
  have sign : ∀ minus : Bool, IsPrintable (if minus then ['-'] else []) := by
    intro minus
    cases minus <;> decide
  have exponent : IsPrintable (writeExponent n.exponent rest) := by
    cases e : n.exponent with
    | none => exact h
    | some e' =>
      obtain ⟨minus, digits⟩ := e'
      exact isPrintable_cons (by decide)
        (((sign minus).append (isPrintable_digits (proper.exponent minus digits e))).append h)
  have fraction : IsPrintable (writeFraction n.fraction (writeExponent n.exponent rest)) := by
    cases f : n.fraction with
    | none => exact exponent
    | some digits =>
      exact isPrintable_cons (by decide)
        ((isPrintable_digits (proper.fraction digits f)).append exponent)
  rw [write_numeral]
  exact ((sign n.negative).append (isPrintable_digits proper.whole)).append fraction

mutual

/-- **Nothing that is written is a control character.** -/
theorem isPrintable_write {tree : JsonTree} (proper : tree.IsProper) {rest : List Char}
    (h : IsPrintable rest) : IsPrintable (tree.write rest) := by
  cases proper with
  | null => exact IsPrintable.append (a := ['n', 'u', 'l', 'l']) (by decide) h
  | bool b =>
    cases b with
    | true => exact IsPrintable.append (a := ['t', 'r', 'u', 'e']) (by decide) h
    | false =>
      exact IsPrintable.append (a := ['f', 'a', 'l', 's', 'e']) (by decide) h
  | number proper => exact isPrintable_write_numeral proper h
  | string s => exact isPrintable_writeString s h
  | @array items each =>
    cases items with
    | nil => exact IsPrintable.append (a := ['[', ']']) (by decide) h
    | cons item items =>
      exact isPrintable_cons (by decide) (isPrintable_write (each item (List.mem_cons_self ..))
        (isPrintable_writeItems (fun i mem => each i (List.mem_cons_of_mem _ mem)) h))
  | @object fields each =>
    cases fields with
    | nil => exact IsPrintable.append (a := ['\x7b', '\x7d']) (by decide) h
    | cons field fields =>
      obtain ⟨key, value⟩ := field
      exact isPrintable_cons (by decide) (isPrintable_writeString key (isPrintable_cons (by decide)
        (isPrintable_write (each (key, value) (List.mem_cons_self ..))
          (isPrintable_writeFields (fun f mem => each f (List.mem_cons_of_mem _ mem)) h))))

theorem isPrintable_writeItems {items : List JsonTree} (proper : ∀ item ∈ items, item.IsProper)
    {rest : List Char} (h : IsPrintable rest) : IsPrintable (writeItems items rest) := by
  cases items with
  | nil => exact isPrintable_cons (by decide) h
  | cons item items =>
    exact isPrintable_cons (by decide) (isPrintable_write (proper item (List.mem_cons_self ..))
      (isPrintable_writeItems (fun i mem => proper i (List.mem_cons_of_mem _ mem)) h))

theorem isPrintable_writeFields {fields : List (Option String × JsonTree)}
    (proper : ∀ f ∈ fields, f.2.IsProper) {rest : List Char} (h : IsPrintable rest) :
    IsPrintable (writeFields fields rest) := by
  cases fields with
  | nil => exact isPrintable_cons (by decide) h
  | cons field fields =>
    obtain ⟨key, value⟩ := field
    exact isPrintable_cons (by decide) (isPrintable_writeString key (isPrintable_cons (by decide)
      (isPrintable_write (proper (key, value) (List.mem_cons_self ..))
        (isPrintable_writeFields (fun f mem => proper f (List.mem_cons_of_mem _ mem)) h))))

end

end JsonTree

/-! ## Frames -/

namespace Lines

/-- **Framed texts are split into themselves**, if there are no control characters in them. -/
theorem split_frames {texts : List (List Char)} (printable : ∀ text ∈ texts, IsPrintable text) :
    split '\n' '\r' (texts.flatMap (· ++ ['\n'])) = texts := by
  induction texts with
  | nil =>
    rw [List.flatMap_nil, split_of_end rfl]
    rfl
  | cons text texts ih =>
    have others := ih fun t mem => printable t (List.mem_cons_of_mem _ mem)
    have absent : ∀ c : Char, c.toNat < 32 → c ∉ text := fun c control mem =>
      absurd (printable text (List.mem_cons_self ..) c mem) (Nat.not_le_of_lt control)
    have first : cut '\n' ((text :: texts).flatMap (· ++ ['\n']))
        = (text, some (texts.flatMap (· ++ ['\n']))) := by
      rw [List.flatMap_cons, List.append_assoc, cut_append (absent '\n' (by decide))]
      simp [cut]
    have solid : text.getLast? ≠ some '\r' := fun last =>
      absent '\r' (by decide) (List.mem_of_getLast? last)
    rw [split_of_feed first, others]
    unfold withoutReturn
    rw [if_neg solid]

end Lines

end CastHub
