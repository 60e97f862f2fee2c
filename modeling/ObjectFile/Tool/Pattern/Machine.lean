import ObjectFile.Tool.Pattern.Expr
/-!
# Searching

An expression is searched for by a machine of the same shape.  Where it takes characters it
has rows of places, which carry marks: a mark says that some match under way has just taken
a character at this place.  The machine steps over the text character by character
(`Machine.step`): a match may be begun in front of every character, each mark moves on to
all places that can come next and that the character fits, and a match is found as soon as
some mark stands at the end.

Every part of a machine knows at which gaps it lets a match pass that takes no character, at
which gaps a match that is inside may leave it, and whether any is inside (`Summary`).  So a
step does not touch parts in which nothing happens, and many copies of a part can be one.
-/

namespace ObjectFile.Tool.Pattern

/-! ## Rows -/

/-- Which characters fit the places of a row. -/
inductive Fit where
  /-- At every place those of a set. -/
  | every (s : CharSet.Lookup)
  /-- At each place the character of a word: the places of each character, a bit each. -/
  | word (places : List (Char × Nat))
deriving Repr, Inhabited

namespace Fit

/-- The places that a character fits, a bit each. -/
def places (length : Nat) (c : Char) : Fit → Nat
  | every s => if s.contains c.toNat then (1 <<< length) - 1 else 0
  | word places => (places.lookup c).getD 0

/-- The places at which a word has a character. -/
def placesIn (cs : List Char) (c : Char) : Nat :=
  cs.foldr (fun d places => 2 * places + if d = c then 1 else 0) 0

/-- Fits the characters of a word. -/
def ofWord (cs : List Char) : Fit := word (cs.eraseDups.map fun c => (c, placesIn cs c))

end Fit

/-! ## Machines -/

/-- What is known of a part of a machine. -/
structure Summary where
  /-- The gaps at which a match may pass without taking a character. -/
  passes : GapSet
  /-- The gaps at which a match that is inside may leave. -/
  leaves : GapSet
  /-- Whether a match is inside. -/
  live : Bool
deriving DecidableEq, Repr

/-- A machine. -/
inductive Machine where
  /-- Lets pass at some gaps. -/
  | gate (gaps : GapSet)
  /-- Takes as many characters as the row has places; the marks are a bit each, and the
  lowest one is that of the first place. -/
  | row (fit : Fit) (length : Nat) (marks : Nat)
  /-- One part and then another. -/
  | seq (p q : Machine) (summary : Summary)
  /-- One part or another. -/
  | alt (p q : Machine) (summary : Summary)
  /-- A part once or more often. -/
  | loop (p : Machine)
deriving Repr, Inhabited

namespace Machine

/-- What is known of a machine. -/
def summary : Machine → Summary
  | gate gaps => ⟨gaps, .none, false⟩
  | row _ length marks => ⟨.none, if marks.testBit (length - 1) then .all else .none, marks ≠ 0⟩
  | seq _ _ s => s
  | alt _ _ s => s
  | loop p => p.summary

/-- One part and then another. -/
def both (p q : Machine) : Machine :=
  let s := p.summary
  let t := q.summary
  seq p q ⟨s.passes.inter t.passes, t.leaves.union (s.leaves.inter t.passes), s.live || t.live⟩

/-- One part or another. -/
def either (p q : Machine) : Machine :=
  let s := p.summary
  let t := q.summary
  alt p q ⟨s.passes.union t.passes, s.leaves.union t.leaves, s.live || t.live⟩

/-- Lets pass everywhere. -/
def free : Machine := gate .all

/-- Steps over a character that stands behind a gap; `enter` tells whether a match may come
in at the gap. -/
def step (g : Gap) (c : Char) : Machine → Bool → Machine
  | gate gaps, _ => gate gaps
  | row fit length marks, enter =>
    if enter || marks ≠ 0 then
      -- All marks move up one place, and those that the character does not fit are dropped.
      row fit length ((2 * marks + if enter then 1 else 0) &&& fit.places length c)
    else row fit length marks
  | seq p q s, enter =>
    if enter || s.live then
      let t := p.summary
      both (p.step g c enter) (q.step g c ((enter && t.passes.contains g) || t.leaves.contains g))
    else seq p q s
  | alt p q s, enter =>
    if enter || s.live then either (p.step g c enter) (q.step g c enter) else alt p q s
  | loop p, enter => loop (p.step g c (enter || p.summary.leaves.contains g))

/-- Steps over a text, behind the given character or nothing, until a match is found. -/
def search (before : Option Char) (m : Machine) : List Char → Bool
  | [] => found before none m
  | c :: cs =>
    found before (some c) m || search (some c) (m.step ⟨.of before, .of (some c)⟩ c true) cs
where
  /-- Whether a match ends at a gap. -/
  found (before after : Option Char) (m : Machine) : Bool :=
    let g : Gap := ⟨.of before, .of after⟩
    m.summary.passes.contains g || m.summary.leaves.contains g

/-- A part so many times.  Copies are joined in pairs, so that the machine is not deep, and
places for characters of the same set are one row. -/
def power (p : Machine) (n : Nat) : Machine :=
  if n = 0 then free
  else if n = 1 then p
  else match p with
    | row (.every s) 1 _ => row (.every s) n 0
    | p =>
      let half := power p (n / 2)
      if n % 2 = 0 then both half half else both p (both half half)
termination_by n

end Machine

/-- The machine that searches for an expression. -/
def Expr.machine : Expr → Machine
  | .empty => .free
  | .word cs => .row (.ofWord cs) cs.length 0
  | .one s => .row (.every s.lookup) 1 0
  | .anchor a => .gate a.gaps
  | .times p least none _ =>
    match least with
    | 0 => .either .free (.loop p.machine)
    | n + 1 => .both (p.machine.power n) (.loop p.machine)
  | .times p least (some most) _ =>
    .both (p.machine.power least) ((Machine.either .free p.machine).power (most - least))
  | .group _ p => p.machine
  | .seq p q => .both p.machine q.machine
  | .alt p q => .either p.machine q.machine

end ObjectFile.Tool.Pattern
