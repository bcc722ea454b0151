/-!
# Blank text

The characters with the Unicode property `White_Space`. A line of nothing else is blank.
-/

namespace CastHub.Text

/-- The characters that count as white space. -/
def blanks : List (Nat × Nat) :=
  [(0x09, 0x0D), (0x20, 0x20), (0x85, 0x85), (0xA0, 0xA0), (0x1680, 0x1680), (0x2000, 0x200A),
   (0x2028, 0x2029), (0x202F, 0x202F), (0x205F, 0x205F), (0x3000, 0x3000)]

/-- Whether a character is white space. -/
def isBlank (c : Char) : Bool := blanks.any fun (low, high) => low ≤ c.toNat && c.toNat ≤ high

/-- Whether a line holds nothing but white space. -/
def isBlankLine (line : String) : Bool := line.toList.all isBlank

/-- The four blanks of plain ASCII text are among them. -/
theorem isBlank_of_isWhitespace {c : Char} (h : c.isWhitespace = true) : isBlank c = true := by
  simp only [Char.isWhitespace, Bool.or_eq_true, decide_eq_true_eq] at h
  rcases h with ((rfl | rfl) | rfl) | rfl <;> decide

end CastHub.Text
