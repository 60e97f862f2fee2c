import ObjectFile.Tool.Character
/-!
# Gaps

A gap is a place in a text before, between or behind its characters.  All that a condition
on a place can ask for is what stands on either side of it, and of that only whether it is
nothing, the end of a line, a character of a word or another one.  So there are sixteen
kinds of gaps, and what holds of some of them is a set of sixteen bits (`GapSet`).
-/

namespace ObjectFile.Tool.Pattern

/-- What stands on one side of a gap. -/
inductive Side where
  /-- Nothing: the text begins or ends here. -/
  | edge
  /-- The end of a line. -/
  | newline
  /-- A character of a word. -/
  | word
  /-- Another character. -/
  | other
deriving DecidableEq, Repr

namespace Side

/-- Every kind of side. -/
def all : List Side := [edge, newline, word, other]

/-- The side at which a character stands, or nothing. -/
def of : Option Char → Side
  | none => edge
  | some c => if c = '\n' then newline else if Character.isWord c then word else other

/-- The place of a side among all. -/
def index : Side → Nat
  | edge => 0
  | newline => 1
  | word => 2
  | other => 3

end Side

/-- A kind of gap. -/
structure Gap where
  /-- What stands before it. -/
  before : Side
  /-- What stands after it. -/
  after : Side
deriving DecidableEq, Repr

namespace Gap

/-- Every kind of gap. -/
def all : List Gap := Side.all.flatMap fun before => Side.all.map fun after => ⟨before, after⟩

/-- The place of a kind among all. -/
def index (g : Gap) : Nat := g.before.index * 4 + g.after.index

end Gap

/-- A set of kinds of gaps. -/
structure GapSet where
  /-- Which kinds are in the set, a bit each. -/
  bits : BitVec 16
deriving DecidableEq, Repr

namespace GapSet

/-- Whether a kind is in the set. -/
def contains (s : GapSet) (g : Gap) : Bool := s.bits.getLsbD g.index

/-- No kind. -/
def none : GapSet := ⟨0⟩

/-- Every kind. -/
def all : GapSet := ⟨BitVec.allOnes 16⟩

/-- The kinds of which something holds. -/
def ofPred (holds : Gap → Bool) : GapSet :=
  ⟨(BitVec.ofBoolListLE (Gap.all.map holds)).setWidth 16⟩

/-- The kinds of one set or another. -/
def union (s t : GapSet) : GapSet := ⟨s.bits ||| t.bits⟩

/-- The kinds of both sets. -/
def inter (s t : GapSet) : GapSet := ⟨s.bits &&& t.bits⟩

end GapSet

/-- A condition on a gap. -/
inductive Anchor where
  /-- The text begins here. -/
  | start
  /-- The text ends here. -/
  | stop
  /-- A line begins here. -/
  | lineStart
  /-- A line ends here. -/
  | lineStop
  /-- A word begins or ends here. -/
  | boundary
  /-- No word begins or ends here. -/
  | inside
  /-- A word begins here. -/
  | wordStart
  /-- A word ends here. -/
  | wordStop
  /-- No character of a word stands before. -/
  | notAfterWord
  /-- No character of a word stands after. -/
  | notBeforeWord
deriving DecidableEq, Repr

namespace Anchor

/-- Whether a condition holds at a gap. -/
def holds (a : Anchor) (g : Gap) : Bool :=
  match a with
  | start => g.before = .edge
  | stop => g.after = .edge
  | lineStart => g.before = .edge || g.before = .newline
  | lineStop => g.after = .edge || g.after = .newline
  | boundary => (g.before = .word) != (g.after = .word)
  | inside => (g.before = .word) == (g.after = .word)
  | wordStart => g.before ≠ .word && g.after = .word
  | wordStop => g.before = .word && g.after ≠ .word
  | notAfterWord => g.before ≠ .word
  | notBeforeWord => g.after ≠ .word

/-- The gaps at which a condition holds. -/
def gaps (a : Anchor) : GapSet := .ofPred a.holds

end Anchor

end ObjectFile.Tool.Pattern
