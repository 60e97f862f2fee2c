import ObjectFile.Tool.Pattern.Expr
import ObjectFile.Tool.Pattern.Frequency
/-!
# Patterns that are words

What the matches of an expression begin with can often be told: one of a few sequences of
bytes, some of which are whole matches and some only the beginning of longer ones
(`Expr.fronts`).  If all are whole matches, the expression is a choice among words and can
be searched for as such, however large its automaton is (`Expr.asWords?`).

* Where there would be too many sequences, or too long ones, less is told: sequences are cut
  off, or nothing is known at all.
* A sequence that begins with an earlier one is left out (`Front.distinct`): wherever it
  stands, the earlier one stands too, and is preferred.  In this way a choice such as
  `a|ab{1000000}` comes down to the word `a`.
* Sequences may be cut off further so that they are found faster, and then they are no words
  (`Front.words?`).
-/

namespace ObjectFile.Tool.Pattern

/-- What a match can begin with. -/
structure Front where
  /-- The bytes. -/
  bytes : List UInt8
  /-- The bytes are a whole match. -/
  whole : Bool
deriving DecidableEq, Repr

namespace Front

/-- The front of the match that takes no character. -/
def nothing : Front := ⟨[], true⟩

/-- The front as a part of something longer. -/
def part (f : Front) : Front := { f with whole := false }

/-- The first bytes of a front, of which it has so many at most. -/
def cut (size : Nat) (f : Front) : Front :=
  if f.bytes.length ≤ size then f else ⟨f.bytes.take size, false⟩

/-- The front of a word. -/
def ofWord (cs : List Char) : Front := ⟨cs.flatMap String.utf8EncodeChar, true⟩

/-- Makes neighbours with the same bytes one, which is whole if all of them are. -/
def merge : List Front → List Front
  | [] => []
  | f :: fs =>
    match merge fs with
    | g :: gs =>
      if f.bytes = g.bytes then { g with whole := f.whole && g.whole } :: gs else f :: g :: gs
    | [] => [f]

/-- Leaves out what begins with an earlier one. -/
def distinct (fs : List Front) : List Front :=
  fs.foldl (fun kept f =>
    if kept.any fun g => g.bytes.isPrefixOf f.bytes then kept else kept ++ [f]) []

end Front

/-! ## What is known -/

/-- With what matches begin, what is preferred first.  Without a list nothing is known. -/
abbrev Fronts := Option (List Front)

namespace Fronts

/-- No more fronts than these are told apart. -/
def maxCount : Nat := 250

/-- No front is longer. -/
def maxSize : Nat := 100

/-- The characters of no larger set are told apart. -/
def maxChars : Nat := 10

/-- No more rounds of a repetition are told apart. -/
def maxRounds : Nat := 10

/-- The fronts are parts of something longer. -/
def parts (fs : Fronts) : Fronts := fs.map (·.map Front.part)

/-- None of the fronts is whole, so nothing can be known of what follows. -/
def isOpen : Fronts → Bool
  | none => true
  | some fs => fs.all fun f => !f.whole

/-- The fronts of one thing or another.  Too many are cut off first. -/
def either : Fronts → Fronts → Fronts
  | some fs, some gs =>
    let (fs, gs) :=
      if fs.length + gs.length ≤ maxCount then (fs, gs)
      else (Front.merge (fs.map (Front.cut 4)), Front.merge (gs.map (Front.cut 4)))
    if fs.length + gs.length ≤ maxCount then some (Front.merge (fs ++ gs)) else none
  | _, _ => none

/-- The fronts of one thing and then another.  If nothing is known of the second, or too
much, the first is a part. -/
def both : Fronts → Fronts → Fronts
  | none, _ => none
  | some fs, gs =>
    match gs.filter fun gs => fs.length * gs.length ≤ maxCount with
    | some gs =>
      let joined := fs.flatMap fun f =>
        if f.whole then gs.map fun g => ⟨f.bytes ++ g.bytes, g.whole⟩ else [f]
      some ((Front.merge joined).map (Front.cut maxSize))
    | none => if fs.any fun f => f.bytes.isEmpty then none else some (fs.map Front.part)

/-- The fronts of one thing and so many rounds of another, as far as they are known. -/
def rounds (fs gs : Fronts) : Nat → Fronts
  | 0 => fs
  | n + 1 => if fs.isOpen then fs else rounds (fs.both gs) gs n

/-- The fronts of a repetition. -/
def times (fs : Fronts) (least : Nat) (most : Option Nat) (greedy : Bool) : Fronts :=
  match least with
  | 0 =>
    let fs := if most = some 1 then fs else fs.parts
    if greedy then fs.either (some [.nothing]) else either (some [.nothing]) fs
  | least =>
    let known := rounds (some [.nothing]) fs (min least maxRounds)
    if most = some least ∧ least ≤ maxRounds then known else known.parts

/-- The fronts of one character of a set. -/
def ofSet (s : CharSet) : Fronts :=
  let count := s.ranges.foldl (fun count range => count + (range.2 + 1 - range.1)) 0
  if maxChars < count then none
  else some (s.ranges.flatMap fun range =>
    (List.range' range.1 (range.2 + 1 - range.1)).map fun n => .ofWord [Char.ofNat n])

end Fronts

/-- How something is added to what is in front of it. -/
inductive Joint where
  /-- It follows. -/
  | sequence
  /-- It is another choice. -/
  | choice
deriving DecidableEq, Repr

/-- Adds fronts to those that are in front of them. -/
def Joint.join (joint : Joint) (before fs : Fronts) : Fronts :=
  match joint with
  | sequence => if before.isOpen then before else before.both fs
  | choice => before.either fs

/-! ## Words -/

namespace Front

/-- What two sequences of bytes begin with. -/
def common : List UInt8 → List UInt8 → List UInt8
  | b :: bs, c :: cs => if b = c then b :: common bs cs else []
  | _, _ => []

/-- What all fronts begin with. -/
def commonAll : List Front → List UInt8
  | [] => []
  | f :: fs => fs.foldl (fun bytes g => common bytes g.bytes) f.bytes

/-- A front of one byte only that is very common, which is found all too often. -/
def isVague (f : Front) : Bool :=
  match f.bytes with
  | [] => true
  | [b] => 250 ≤ byteRank b
  | _ => false

/-- Sizes to which fronts are cut off one after another, each with the number of fronts above
which this is done. -/
def cuts : List (Nat × Nat) := [(5, 10), (4, 10), (3, 64), (2, 64), (1, 10)]

/-- Cuts fronts off until they are few. -/
def shorten : List (Nat × Nat) → List Front → List Front
  | [], fs => fs
  | (size, count) :: cuts, fs =>
    if fs.length ≤ count then fs else shorten cuts (distinct (fs.map (cut size)))

/-- The fronts that are searched for instead of some: where one begins with another one, only
that; where all begin with the same bytes that are likely to be found seldom, only these. -/
def sought (fs : List Front) : List Front :=
  let kept := distinct fs
  let shared := commonAll kept
  let few := kept.all Front.whole && kept.length ≤ 16
  if 1 < fs.length && !shared.isEmpty && shared.length ≤ 3 && byteRank (shared.headD 0) < 200 then
    merge (kept.map (cut 1))
  else
    let kept :=
      if 4 < shared.length || (1 < shared.length && !few) then
        merge (kept.map (cut shared.length))
      else kept
    let short := shorten cuts kept
    -- Words are given up for their beginnings only where these are few and not too short.
    if kept.all Front.whole &&
        (short.any isVague || short.any (·.bytes.length ≤ 2) || 64 < short.length) then kept
    else short

/-- The words that fronts are, if that is how they are searched for. -/
def words? (fs : List Front) : Option (List (List UInt8)) :=
  let sought := sought fs
  if fs.isEmpty || fs.any (·.bytes.isEmpty) || !sought.all Front.whole then none
  else some (sought.map Front.bytes)

end Front

namespace Expr

/-- Adds what matches begin with to what is in front of them. -/
def addFronts (joint : Joint) (before : Fronts) : Expr → Fronts
  | empty => joint.join before (some [.nothing])
  | word cs => joint.join before (some [(Front.ofWord cs).cut Fronts.maxSize])
  | one s => joint.join before (.ofSet s)
  | anchor _ => joint.join before (some [.nothing])
  | times p least most greedy =>
    joint.join before ((p.addFronts .sequence (some [.nothing])).times least most greedy)
  | group _ p => joint.join before (p.addFronts .sequence (some [.nothing]))
  | seq p q =>
    match joint with
    | .sequence => q.addFronts .sequence (p.addFronts .sequence before)
    | .choice =>
      Joint.choice.join before
        (q.addFronts .sequence (p.addFronts .sequence (some [.nothing])))
  | alt p q =>
    match joint with
    | .choice => q.addFronts .choice (p.addFronts .choice before)
    | .sequence =>
      Joint.sequence.join before (q.addFronts .choice (p.addFronts .choice (some [])))

/-- With what matches begin. -/
def fronts (p : Expr) : Fronts := p.addFronts .sequence (some [.nothing])

/-- Nothing but characters is asked for: there are neither conditions nor groups with a
number. -/
def isPlain : Expr → Bool
  | anchor _ => false
  | group _ _ => false
  | times p _ _ _ => p.isPlain
  | seq p q => p.isPlain && q.isPlain
  | alt p q => p.isPlain && q.isPlain
  | _ => true

/-- The words of a choice among words. -/
def words? : Expr → Option (List (List Char))
  | word cs => some [cs]
  | alt p q => return (← p.words?) ++ (← q.words?)
  | _ => none

/-- So many words are searched for as such even if they are long. -/
def manyWords : Nat := 3000

/-- The words that an expression comes down to, if it does. -/
def asWords? (p : Expr) : Option (List (List UInt8)) :=
  match p.words?.filter fun words => manyWords ≤ words.length with
  | some words => some (words.map (·.flatMap String.utf8EncodeChar))
  | none => if p.isPlain then p.fronts.bind Front.words? else none

end Expr

end ObjectFile.Tool.Pattern
