import ObjectFile.Tool.Pattern.Gap
/-!
# Regular expressions

An expression matches parts of a text.  Expressions are built by functions that keep them
simple, so that what means the same in an obvious way is the same expression: characters in
a row are one word (`Expr.sequence`), a choice among single characters or among sets is a
set, what all choices begin with stands in front of them (`Expr.choice`), and nothing that
matches only the empty text is repeated more than once (`Expr.repeated`).  A group with a
number is not looked into when this is done, as its borders are of interest.
-/

namespace ObjectFile.Tool.Pattern

/-- A regular expression. -/
inductive Expr where
  /-- Matches the empty text. -/
  | empty
  /-- Matches these characters, of which there is at least one. -/
  | word (cs : List Char)
  /-- Matches one character of a set. -/
  | one (s : CharSet)
  /-- Matches the empty text at some gaps. -/
  | anchor (a : Anchor)
  /-- Matches an expression so many times, at least and, if there is a bound, at most; a
  greedy repetition prefers many. -/
  | times (p : Expr) (least : Nat) (most : Option Nat) (greedy : Bool)
  /-- Matches an expression; the group has a number. -/
  | group (number : Nat) (p : Expr)
  /-- Matches one expression and then another, of which only the second is a sequence. -/
  | seq (p q : Expr)
  /-- Matches one expression or another, of which only the second is a choice. -/
  | alt (p q : Expr)
deriving DecidableEq, Repr, Inhabited

namespace Expr

/-- The number of characters of the shortest match, if every part can match. -/
def shortest : Expr → Option Nat
  | empty => some 0
  | word cs => some cs.length
  | one s => if s.ranges.isEmpty then none else some 1
  | anchor _ => some 0
  | times p least _ _ => p.shortest.map (· * least)
  | group _ p => p.shortest
  | seq p q => return (← p.shortest) + (← q.shortest)
  | alt p q => return min (← p.shortest) (← q.shortest)

/-- The number of characters of the longest match, if every part can match and none without
bound. -/
def longest : Expr → Option Nat
  | empty => some 0
  | word cs => some cs.length
  | one s => if s.ranges.isEmpty then none else some 1
  | anchor _ => some 0
  | times p _ most _ => return (← p.longest) * (← most)
  | group _ p => p.longest
  | seq p q => return (← p.longest) + (← q.longest)
  | alt p q => return max (← p.longest) (← q.longest)

/-! ## Sets -/

/-- Matches one character of a set. -/
def ofSet (s : CharSet) : Expr :=
  match s.only? with
  | some c => word [c]
  | none => one s

/-- The character that an expression matches, if it matches just one. -/
def char? : Expr → Option Char
  | word [c] => some c
  | _ => none

/-- The set of which an expression matches one character, if it is of that kind. -/
def set? : Expr → Option CharSet
  | one s => some s
  | _ => none

/-! ## Sequences -/

/-- The parts of a sequence. -/
def parts : Expr → List Expr
  | empty => []
  | seq p q => p :: q.parts
  | p => [p]

/-- Joins words that follow each other. -/
def joinWords : List Expr → List Expr
  | [] => []
  | p :: ps =>
    match p, joinWords ps with
    | word cs, word ds :: qs => word (cs ++ ds) :: qs
    | p, qs => p :: qs

/-- The sequence of some parts. -/
def ofParts : List Expr → Expr
  | [] => empty
  | [p] => p
  | p :: ps => seq p (ofParts ps)

/-- Matches some expressions one after another. -/
def sequence (ps : List Expr) : Expr := ofParts (joinWords (ps.flatMap parts))

/-! ## Choices -/

/-- The choices that an expression leaves. -/
def choices : Expr → List Expr
  | alt p q => p :: q.choices
  | p => [p]

/-- The choice among some expressions. -/
def ofChoices : List Expr → Expr
  | [] => one .empty
  | [p] => p
  | p :: ps => alt p (ofChoices ps)

/-- Matches one of some expressions, none of which is a choice itself. -/
def chooseSet (ps : List Expr) : Expr :=
  match ps, ps.mapM char?, ps.mapM set? with
  | [p], _, _ => p
  | _, some cs, _ => ofSet (.ofRanges (cs.flatMap fun c => (CharSet.single c).ranges))
  | _, none, some sets => ofSet (.ofRanges (sets.flatMap CharSet.ranges))
  | _, none, none => ofChoices ps

/-- What two lists begin with. -/
def commonFront : List Expr → List Expr → List Expr
  | p :: ps, q :: qs => if p = q then p :: commonFront ps qs else []
  | _, _ => []

/-- Matches one of some expressions.  If all of them are sequences of two or more parts,
what they begin with in common is matched first. -/
def choice (ps : List Expr) : Expr :=
  let ps := ps.flatMap choices
  match (if ps.all fun p => 1 < p.parts.length then ps.map parts else []) with
  | first :: second :: others =>
    match (second :: others).foldl commonFront first with
    | [] => chooseSet ps
    | front =>
      let rests := (first :: second :: others).map fun parts => sequence (parts.drop front.length)
      sequence (front ++ [chooseSet (rests.flatMap choices)])
  | _ => chooseSet ps

/-! ## Repetitions -/

/-- Matches an expression so many times, at least and, if there is a bound, at most.  To
match the empty text more than once is to match it once. -/
def repeated (p : Expr) (least : Nat) (most : Option Nat) (greedy : Bool) : Expr :=
  let (least, most) :=
    if p.longest = some 0 then (min least 1, some (min (most.getD 1) 1)) else (least, most)
  match least, most with
  | 0, some 0 => empty
  | 1, some 1 => p
  | least, most => times p least most greedy

/-! ## The ends of a text -/

/-- Every match begins where the text begins, which the expression requires in front of
everything else. -/
def fromStart : Expr → Bool
  | anchor a => a = .start
  | times p least _ _ => 0 < least && p.fromStart
  | group _ p => p.fromStart
  | seq p q => p.fromStart || (p.longest = some 0 && q.fromStart)
  | alt p q => p.fromStart && q.fromStart
  | _ => false

/-- Every match ends where the text ends, which the expression requires behind everything
else. -/
def toStop : Expr → Bool
  | anchor a => a = .stop
  | times p least _ _ => 0 < least && p.toStop
  | group _ p => p.toStop
  | seq p q => q.toStop || (q.longest = some 0 && p.toStop)
  | alt p q => p.toStop && q.toStop
  | _ => false

end Expr

end ObjectFile.Tool.Pattern
