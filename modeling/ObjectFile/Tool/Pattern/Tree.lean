import ObjectFile.Tool.Pattern.Expr
/-!
# Patterns as they are written

A pattern is a tree before it is an expression.  The tree has everything that has been
written where it has been written: classes within brackets with their operations, groups,
and the directives that change how what follows is understood.  How deep it is is limited
(`Tree.maxDepth`).

`Tree.expr` gives the meaning of a tree.
-/

namespace ObjectFile.Tool.Pattern

/-! ## Classes within brackets -/

/-- An operation on two classes. -/
inductive Operation where
  | inter
  | diff
  | symmDiff
deriving DecidableEq, Repr

/-- The characters that an operation gives. -/
def Operation.apply : Operation → CharSet → CharSet → CharSet
  | inter => CharSet.inter
  | diff => CharSet.diff
  | symmDiff => CharSet.symmDiff

/-- A class of characters. -/
inductive Class where
  /-- A character, a range or a class that has a name. -/
  | set (s : CharSet)
  /-- All characters but those of a set. -/
  | except (s : CharSet)
  /-- A class within brackets of its own, or all other characters. -/
  | brackets (negated : Bool) (c : Class)
  /-- Some classes side by side. -/
  | union (cs : List Class)
  /-- An operation on two classes. -/
  | operation (o : Operation) (c d : Class)
deriving Repr, Inhabited

namespace Class

mutual

/-- How deep brackets, unions and operations are nested. -/
def depth : Class → Nat
  | set _ => 0
  | except _ => 0
  | brackets _ c => c.depth + 1
  | union cs => depthAll cs + 1
  | operation _ c d => max c.depth d.depth + 1

/-- The depth of the deepest of some classes. -/
def depthAll : List Class → Nat
  | [] => 0
  | c :: cs => max c.depth (depthAll cs)

end

/-- A set with all variants in case, if case is disregarded. -/
def variants (caseless : Bool) (s : CharSet) : CharSet :=
  if caseless then Character.caseless s else s

mutual

/-- The characters of a class.  Where case is disregarded, variants are added before the
others are taken and before operations are applied. -/
def chars (caseless : Bool) : Class → CharSet
  | set s => s
  | except s => (variants caseless s).compl
  | brackets negated c =>
    let s := variants caseless (c.chars caseless)
    if negated then s.compl else s
  | union cs => .ofRanges (rangesAll caseless cs)
  | operation o c d =>
    o.apply (variants caseless (c.chars caseless)) (variants caseless (d.chars caseless))

/-- The ranges of the characters of some classes. -/
def rangesAll (caseless : Bool) : List Class → List (Nat × Nat)
  | [] => []
  | c :: cs => (c.chars caseless).ranges ++ rangesAll caseless cs

end

end Class

/-! ## Modes -/

/-- A way in which a pattern can be understood. -/
inductive Mode where
  /-- Case is disregarded. -/
  | caseless
  /-- Lines begin and end within the text. -/
  | lines
  /-- The dot stands for the end of a line too. -/
  | dotAll
  /-- Repetitions that are greedy otherwise are not, and the other way round. -/
  | swapped
  /-- Characters are those of Unicode, as they always are here. -/
  | unicode
deriving DecidableEq, Repr

/-- A change of modes: each is turned on or off. -/
abbrev ModeChange := List (Mode × Bool)

/-- The modes that make a difference. -/
structure Modes where
  /-- Case is disregarded. -/
  caseless : Bool := false
  /-- Lines begin and end within the text. -/
  lines : Bool := false
  /-- The dot stands for the end of a line too. -/
  dotAll : Bool := false
  /-- Repetitions that are greedy otherwise are not, and the other way round. -/
  swapped : Bool := false
deriving DecidableEq, Repr

namespace Modes

/-- Turns a mode on or off. -/
def set (m : Modes) : Mode × Bool → Modes
  | (.caseless, on) => { m with caseless := on }
  | (.lines, on) => { m with lines := on }
  | (.dotAll, on) => { m with dotAll := on }
  | (.swapped, on) => { m with swapped := on }
  | _ => m

/-- Changes modes. -/
def change (m : Modes) (c : ModeChange) : Modes := c.foldl set m

end Modes

/-! ## Patterns -/

/-- A pattern as it is written. -/
inductive Tree where
  /-- Nothing. -/
  | empty
  /-- Changes the modes up to the end of the group. -/
  | directive (c : ModeChange)
  /-- A character. -/
  | char (c : Char)
  /-- Any character but, as a rule, the end of a line. -/
  | dot
  /-- A class that has a name, outside brackets. -/
  | named (s : CharSet)
  /-- A class within brackets. -/
  | brackets (c : Class)
  /-- Where the text begins or, in some modes, a line. -/
  | front
  /-- Where the text ends or, in some modes, a line. -/
  | back
  /-- Another condition. -/
  | anchor (a : Anchor)
  /-- A repetition; a greedy one prefers many. -/
  | times (p : Tree) (least : Nat) (most : Option Nat) (greedy : Bool)
  /-- A group, which may have a number and modes of its own. -/
  | group (number : Option Nat) (c : ModeChange) (p : Tree)
  /-- Some patterns one after another. -/
  | seq (ps : List Tree)
  /-- Some patterns to choose among. -/
  | alt (ps : List Tree)
deriving Repr, Inhabited

namespace Tree

/-- Some patterns one after another, which are no sequence unless there are two. -/
def ofSeq : List Tree → Tree
  | [] => empty
  | [p] => p
  | ps => seq ps

/-- Some patterns to choose among, which are no choice unless there are two. -/
def ofAlt : List Tree → Tree
  | [] => empty
  | [p] => p
  | ps => alt ps

mutual

/-- How deep a pattern is nested.  Repetitions, groups, sequences, choices and brackets
count. -/
def depth : Tree → Nat
  | brackets c => c.depth
  | times p _ _ _ => p.depth + 1
  | group _ _ p => p.depth + 1
  | seq ps => depthAll ps + 1
  | alt ps => depthAll ps + 1
  | _ => 0

/-- The depth of the deepest of some patterns. -/
def depthAll : List Tree → Nat
  | [] => 0
  | p :: ps => max p.depth (depthAll ps)

end

/-- The greatest depth that is accepted. -/
def maxDepth : Nat := 250

mutual

/-- The meaning of a pattern, and the modes behind it. -/
def expr (m : Modes) : Tree → Expr × Modes
  | empty => (.empty, m)
  | directive c => (.empty, m.change c)
  | char c => (.ofSet (Class.variants m.caseless (.single c)), m)
  | dot => (.ofSet (if m.dotAll then CharSet.compl .empty else (CharSet.single '\n').compl), m)
  | named s => (.ofSet s, m)
  | brackets c => (.ofSet (c.chars m.caseless), m)
  | front => (.anchor (if m.lines then .lineStart else .start), m)
  | back => (.anchor (if m.lines then .lineStop else .stop), m)
  | anchor a => (.anchor a, m)
  | times p least most greedy => (.repeated (p.expr m).1 least most (greedy != m.swapped), m)
  | group number c p =>
    let q := (p.expr (m.change c)).1
    (match number with
      | some n => .group n q
      | none => q, m)
  | seq ps =>
    let (qs, m) := exprAll m ps
    (.sequence qs, m)
  | alt ps =>
    let (qs, m) := exprAll m ps
    (.choice qs, m)

/-- The meanings of some patterns, each in the modes behind the one before it, and the modes
behind all of them. -/
def exprAll (m : Modes) : List Tree → List Expr × Modes
  | [] => ([], m)
  | p :: ps =>
    let (q, m) := p.expr m
    let (qs, m) := exprAll m ps
    (q :: qs, m)

end

end Tree

end ObjectFile.Tool.Pattern
