import ObjectFile.Tool.CharSet
import ObjectFile.Tool.Character.Case
import ObjectFile.Tool.Character.Digit
import ObjectFile.Tool.Character.Word
/-!
# Classes of characters

Blanks, decimal digits and the characters that words are made of, for all of Unicode, and
the characters that differ from given ones in case only.
-/

namespace ObjectFile.Tool.Character

/-- White space: the ASCII blanks and the separators that Unicode counts among them. -/
def blanks : CharSet :=
  ⟨[(0x09, 0x0D), (0x20, 0x20), (0x85, 0x85), (0xA0, 0xA0), (0x1680, 0x1680), (0x2000, 0x200A),
    (0x2028, 0x2029), (0x202F, 0x202F), (0x205F, 0x205F), (0x3000, 0x3000)]⟩

/-- White space. -/
def isBlank (c : Char) : Bool := blanks.contains c

/-- The decimal digits of all scripts. -/
def digits : CharSet := ⟨digitRanges⟩

/-- The characters that words are made of. -/
def words : CharSet := ⟨wordRanges⟩

/-- The characters that words are made of, to be asked often. -/
def wordLookup : CharSet.Lookup := words.lookup

/-- A letter, a mark, a decimal digit, a connector such as the underscore, or a joiner. -/
def isWord (c : Char) : Bool := wordLookup.contains c.toNat

/-- The characters of a set and all that differ from one of them in case only.  Those that
stand for others come first, and then all that they stand for. -/
def caseless (s : CharSet) : CharSet :=
  let bases := casePairs.filter fun pair => s.ranges.any (CharSet.within pair.1)
  let s := CharSet.ofRanges (s.ranges ++ bases.map fun pair => (pair.2, pair.2))
  let forms := casePairs.filter fun pair => s.ranges.any (CharSet.within pair.2)
  CharSet.ofRanges (s.ranges ++ forms.map fun pair => (pair.1, pair.1))

/-! ## The tables -/

example : wordRanges.length = 796 := by decide +kernel
example : digitRanges.length = 71 := by decide +kernel
example : casePairs.length = 1484 := by decide +kernel

-- Ranges are in order and do not touch.
example : (wordRanges.zip wordRanges.tail).all fun (r, s) => r.1 ≤ r.2 ∧ r.2 + 1 < s.1 := by
  decide +kernel
example : (digitRanges.zip digitRanges.tail).all fun (r, s) => r.1 ≤ r.2 ∧ r.2 + 1 < s.1 := by
  decide +kernel

-- Words have all digits.
example : digitRanges.all fun r => wordRanges.any fun s => s.1 ≤ r.1 ∧ r.2 ≤ s.2 := by
  decide +kernel

end ObjectFile.Tool.Character
