/-!
# Sets of characters

A set of characters is written as the ranges of code points that it consists of: in ascending
order, none touching the next, and without the surrogates, which are no characters.

To ask a large set again and again, its ranges are put into a search tree
(`CharSet.lookup`).
-/

namespace ObjectFile.Tool

/-- A set of characters. -/
structure CharSet where
  /-- The first and the last code point of each range. -/
  ranges : List (Nat × Nat)
deriving DecidableEq, Repr, Inhabited

namespace CharSet

/-- Whether a code point lies in a range. -/
def within (n : Nat) (range : Nat × Nat) : Bool := range.1 ≤ n && n ≤ range.2

/-- Whether a character is in the set. -/
def contains (s : CharSet) (c : Char) : Bool := s.ranges.any (within c.toNat)

/-- No character. -/
def empty : CharSet := ⟨[]⟩

/-- The parts of a range that are characters. -/
def scalars (range : Nat × Nat) : List (Nat × Nat) :=
  [(range.1, min range.2 0xD7FF), (max range.1 0xE000, range.2)].filter fun r => r.1 ≤ r.2

/-- The characters from one to another. -/
def range (first last : Char) : CharSet := ⟨scalars (first.toNat, last.toNat)⟩

/-- One character. -/
def single (c : Char) : CharSet := ⟨[(c.toNat, c.toNat)]⟩

/-- Joins a range with ranges in ascending order, as far as they overlap or touch. -/
def joinFrom (r : Nat × Nat) : List (Nat × Nat) → List (Nat × Nat)
  | [] => [r]
  | s :: rest =>
    if s.1 ≤ r.2 + 1 then joinFrom (r.1, max r.2 s.2) rest else r :: joinFrom s rest

/-- The set of the characters of some ranges, which may lie in any way. -/
def ofRanges (ranges : List (Nat × Nat)) : CharSet :=
  match ranges.mergeSort fun r s => r.1 ≤ s.1 with
  | [] => empty
  | r :: rest => ⟨joinFrom r rest⟩

/-- The characters of one set or another. -/
def union (s t : CharSet) : CharSet := ofRanges (s.ranges ++ t.ranges)

/-- What lies between ranges in ascending order, from a code point on. -/
def gapsFrom (start : Nat) : List (Nat × Nat) → List (Nat × Nat)
  | [] => [(start, 0x10FFFF)]
  | r :: rest => (if start < r.1 then [(start, r.1 - 1)] else []) ++ gapsFrom (r.2 + 1) rest

/-- All other characters. -/
def compl (s : CharSet) : CharSet := ⟨(gapsFrom 0 s.ranges).flatMap scalars⟩

/-- The characters of both sets. -/
def inter (s t : CharSet) : CharSet := (s.compl.union t.compl).compl

/-- The characters of one set that are not in another. -/
def diff (s t : CharSet) : CharSet := (s.compl.union t).compl

/-- The characters of one set or another but not of both. -/
def symmDiff (s t : CharSet) : CharSet := (s.diff t).union (t.diff s)

/-- The one character of a set that has one. -/
def only? (s : CharSet) : Option Char :=
  match s.ranges with
  | [(first, last)] => if first = last then some (Char.ofNat first) else none
  | _ => none

/-! ## Search trees -/

/-- Ranges in a search tree. -/
inductive Lookup where
  | none
  | node (below : Lookup) (first last : Nat) (above : Lookup)
deriving Repr, Inhabited

namespace Lookup

/-- Whether a code point lies in one of the ranges. -/
def contains : Lookup → Nat → Bool
  | none, _ => false
  | node below first last above, n =>
    if n < first then below.contains n else if last < n then above.contains n else true

/-- A tree of at most the given height from as many ranges as it holds, and the ranges that
are left. -/
def build : Nat → List (Nat × Nat) → Lookup × List (Nat × Nat)
  | 0, ranges => (none, ranges)
  | height + 1, ranges =>
    let (below, rest) := build height ranges
    match rest with
    | [] => (below, [])
    | (first, last) :: rest =>
      let (above, rest) := build height rest
      (node below first last above, rest)

end Lookup

/-- The search tree of a set. -/
def lookup (s : CharSet) : Lookup := (Lookup.build (s.ranges.length.log2 + 1) s.ranges).1

end CharSet

end ObjectFile.Tool
