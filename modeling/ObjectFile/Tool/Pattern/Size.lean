import Std.Data.HashMap
import ObjectFile.Tool.Pattern.Words
/-!
# The size of an expression

Spelt out as an automaton that reads bytes, an expression can be far larger than its text:
`\w` is some hundred thousand characters of one to four bytes each, and `x{1000000}` a million
states.  Expressions whose automaton is too large are refused (`Expr.fits`), so this
file counts what the automaton takes in memory, without making it.

The automaton is counted as it is for reading forwards and for reading backwards, as a
search needs both.  A state takes a fixed part, and more for each of its transitions or
successors if it may have several.  Characters outside ASCII are sequences of byte ranges:
forwards, states that lead on by the same ranges to the same states are one state; backwards,
states that lead on by the same range to the same state are.  Which states are known is
remembered in a table of limited size (`Known`).
-/

namespace ObjectFile.Tool

/-! ## Characters as bytes -/

/-- A range of bytes, by the first and the last. -/
abbrev ByteRange := Nat × Nat

namespace CharSet

/-- The code points from one to another, all of which have as many bytes, as sequences of
byte ranges.  The first byte holds what is left of the code point when six bits have been
taken off for each of the further bytes, and `lead` is added to it. -/
def byteRanges (lead : Nat) : Nat → Nat → Nat → List (List ByteRange)
  | 0, first, last => [[(lead + first, lead + last)]]
  | further + 1, first, last =>
    let unit := 64 ^ (further + 1)
    let low := first / unit
    let high := last / unit
    let under (n : Nat) (rests : List (List ByteRange)) := rests.map ((lead + n, lead + n) :: ·)
    if low = high then under low (byteRanges 0x80 further (first % unit) (last % unit))
    else
      -- A first byte that does not go with all further bytes is split off at either end.
      let (before, start) :=
        if first % unit = 0 then ([], low)
        else (under low (byteRanges 0x80 further (first % unit) (unit - 1)), low + 1)
      let (behind, stop) :=
        if last % unit = unit - 1 then ([], high)
        else (under high (byteRanges 0x80 further 0 (last % unit)), high - 1)
      let between :=
        if start ≤ stop then
          [(lead + start, lead + stop) :: List.replicate (further + 1) (0x80, 0xBF)]
        else []
      before ++ between ++ behind

/-- The characters of one, two, three and four bytes: the first, the last, what is added to
the first byte, and the number of further bytes. -/
def byteClasses : List (Nat × Nat × Nat × Nat) :=
  [(0x0, 0x7F, 0x0, 0), (0x80, 0x7FF, 0xC0, 1), (0x800, 0xFFFF, 0xE0, 2),
    (0x10000, 0x10FFFF, 0xF0, 3)]

/-- A set of characters as sequences of byte ranges, in ascending order. -/
def sequences (s : CharSet) : List (List ByteRange) :=
  s.ranges.flatMap fun range =>
    byteClasses.flatMap fun (least, most, lead, further) =>
      let first := max range.1 least
      let last := min range.2 most
      if first ≤ last then byteRanges lead further first last else []

/-- All characters are ASCII. -/
def isAscii (s : CharSet) : Bool := s.ranges.all fun range => range.2 < 0x80

end CharSet

namespace Pattern

/-! ## Counting -/

/-- What an automaton takes. -/
structure Tally where
  /-- The number of states. -/
  states : Nat := 0
  /-- What states take beyond their fixed part. -/
  extra : Nat := 0
deriving DecidableEq, Repr

namespace Tally

/-- The size of an automaton: a state takes 32 bytes at least. -/
def size (t : Tally) : Nat := t.states * 32 + t.extra

/-- The size of the largest automaton that is accepted: ten mebibytes. -/
def maxSize : Nat := 10 * 1024 * 1024

/-- Adds states of the fixed size. -/
def plain (count : Nat) (t : Tally) : Tally := { t with states := t.states + count }

/-- Adds a state with transitions, of eight bytes each. -/
def branching (transitions : Nat) (t : Tally) : Tally :=
  ⟨t.states + 1, t.extra + transitions * 8⟩

/-- Adds a state with successors, of four bytes each. -/
def forking (successors : Nat) (t : Tally) : Tally :=
  ⟨t.states + 1, t.extra + successors * 4⟩

/-- Adds something so many times, or until the automaton is too large. -/
def repeated (add : Tally → Tally) : Nat → Tally → Tally
  | 0, t => t
  | n + 1, t => if maxSize < t.size then t else repeated add n (add t)

end Tally

/-- The way in which an automaton reads. -/
inductive Direction where
  | forwards
  | backwards
deriving DecidableEq, Repr

/-! ## Known states -/

/-- The states so far, of which the latest are known by what leads on from them.  The table has
a limited number of places; a state takes the place of another one that was there. -/
structure Known where
  /-- What the states so far take. -/
  tally : Tally
  /-- The number of places. -/
  places : UInt64
  /-- What is at each place: how the state leads on, and the state. -/
  table : Std.HashMap UInt64 (List Nat × Nat) := ∅

namespace Known

/-- The place of a state: a hash of the numbers that tell how it leads on. -/
def place (k : Known) (way : List Nat) : UInt64 :=
  way.foldl (fun hash n => (hash ^^^ n.toUInt64) * 1099511628211) 14695981039346656037 % k.places

/-- The state that leads on in some way: a known one or a new one, which is added. -/
def link (k : Known) (way : List Nat) (add : Tally → Tally) : Nat × Known :=
  let place := k.place way
  let state := k.tally.states
  let new := { k with tally := add k.tally, table := k.table.insert place (way, state) }
  match k.table[place]? with
  | some (other, known) => if other = way then (known, k) else (state, new)
  | none => (state, new)

end Known

/-! ## Sets of characters -/

/-- Sequences by their first range, which is taken off. -/
def byFirst : List (List ByteRange) → List (ByteRange × List (List ByteRange))
  | [] => []
  | [] :: rest => byFirst rest
  | (r :: tail) :: rest =>
    match byFirst rest with
    | (s, tails) :: more =>
      if r = s then (r, tail :: tails) :: more else (r, [tail]) :: (s, tails) :: more
    | [] => [(r, [tail])]

/-- The state from which sequences of at most the given length lead to another one.  A state
has a transition for each range with which they begin, and what follows comes before it. -/
def Known.forwards (stop : Nat) : Nat → List (List ByteRange) → Known → Nat × Known
  | 0, _, k => (stop, k)
  | length + 1, sequences, k =>
    let (transitions, k) := (byFirst sequences).foldl
      (fun (transitions, k) (range, rests) =>
        let (next, k) := if rests = [[]] then (stop, k) else forwards stop length rests k
        ([range.1, range.2, next] :: transitions, k))
      (([], k) : List (List Nat) × Known)
    k.link transitions.reverse.flatten fun t => t.branching transitions.length

/-- Adds states for the ranges of a sequence, the first of which leads to the given state. -/
def Known.backwards (stop : Nat) (ranges : List ByteRange) (k : Known) : Known :=
  (ranges.foldl (fun (next, k) range => k.link [next, range.1, range.2] (Tally.plain 1))
    (stop, k)).2

/-- Adds the automaton for one character of a set. -/
def Tally.set (d : Direction) (s : CharSet) (t : Tally) : Tally :=
  if s.isAscii then (t.plain 1).branching s.ranges.length
  else
    let sequences := s.sequences
    match d with
    | .forwards =>
      let known : Known := { tally := t.plain 1, places := 10000 }
      (known.forwards t.states 4 sequences).2.tally
    | .backwards =>
      let known : Known := { tally := (t.forking sequences.length).plain 1, places := 1000 }
      (sequences.foldl (fun k ranges => k.backwards (t.states + 1) ranges) known).tally

/-! ## Choices among words -/

/-- The bytes of a word in the order in which they are read. -/
def bytesOf (d : Direction) (cs : List Char) : List UInt8 :=
  let bytes := cs.flatMap String.utf8EncodeChar
  match d with
  | .forwards => bytes
  | .backwards => bytes.reverse

/-- The words between those that are empty. -/
def segments : List (List UInt8) → List (List (List UInt8))
  | [] => [[]]
  | word :: rest =>
    match word, segments rest with
    | [], found => [] :: found
    | _, segment :: found => (word :: segment) :: found
    | _, [] => [[word]]

/-- Adds a word to those that begin with the same byte. -/
def addWord (b : UInt8) (rest : List UInt8) :
    List (UInt8 × List (List UInt8)) → List (UInt8 × List (List UInt8))
  | [] => [(b, [rest])]
  | (c, rests) :: more =>
    if b = c then (c, rests ++ [rest]) :: more else (c, rests) :: addWord b rest more

/-- Words by their first byte, which is taken off. -/
def branches (words : List (List UInt8)) : List (UInt8 × List (List UInt8)) :=
  words.foldl (fun found word =>
    match word with
    | [] => found
    | b :: rest => addWord b rest found) []

/-- Adds a tree for words shorter than the given length.  A word that ends where others go on
divides those that are given before it from those that are given after it, so that earlier
words are preferred; each part of the division has a state for its first bytes. -/
def Tally.tree : Nat → List (List UInt8) → Tally → Tally
  | 0, _, t => t
  | length + 1, words, t =>
    if words.all List.isEmpty then t
    else
      -- A word that ends here and is given several times in front counts once.
      let words := match words with
        | [] :: rest => [] :: rest.dropWhile List.isEmpty
        | words => words
      let parts := (segments words).map branches
      let filled := parts.filter fun part => !part.isEmpty
      let t := t.forking (filled.length + (parts.length - 1))
      filled.foldl (fun t part =>
        part.foldl (fun t (_, rests) => Tally.tree length rests t)
          (if part.length = 1 then t.plain 1 else t.branching part.length)) t

/-- Adds the automaton for a choice among words. -/
def Tally.words (d : Direction) (words : List (List Char)) (t : Tally) : Tally :=
  let words := words.map (bytesOf d)
  (t.plain 1).tree ((words.map List.length).foldl max 0 + 1) words

/-! ## Expressions -/

/-- Adds the automaton for a repetition of something; `takes` tells whether that takes a
character at least. -/
def Tally.times (add : Tally → Tally) (takes : Bool) (least : Nat) (most : Option Nat)
    (t : Tally) : Tally :=
  match least, most with
  | 0, some 1 => (add (t.forking 2)).plain 1
  | 0, none =>
    if takes then add (t.forking 2) else (((add t).forking 2).forking 2).plain 1
  | least, none => (t.repeated add least).forking 2
  | least, some most =>
    let t := if least = 0 then t.plain 1 else t.repeated add least
    if most ≤ least then t
    else (t.plain 1).repeated (fun t => add (t.forking 2)) (most - least)

/-- Where an expression stands in a choice. -/
inductive Rank where
  /-- It is no part of a choice, or the first one. -/
  | first
  /-- It is what follows the first one. -/
  | second
  /-- It is what follows the second one or a later one. -/
  | later
deriving DecidableEq, Repr

namespace Expr

/-- What a choice takes besides its parts, which is added when two parts have been or, for
each further part, behind it. -/
def fork (rank : Rank) (t : Tally) : Tally :=
  match rank with
  | .first => t
  | .second => (t.forking 2).plain 1
  | .later => { t with extra := t.extra + 4 }

/-- Adds the automaton for an expression. -/
def tally (d : Direction) (rank : Rank) (p : Expr) (t : Tally) : Tally :=
  match p with
  | empty => fork rank (t.plain 1)
  | word cs => fork rank (t.plain (bytesOf d cs).length)
  | one s => fork rank (t.set d s)
  | anchor _ => fork rank (t.plain 1)
  | times p least most _ =>
    fork rank (t.times (p.tally d .first) (p.shortest.any (0 < ·)) least most)
  | group _ p =>
    fork rank <| match d with
      | .forwards => (p.tally d .first (t.plain 1)).plain 1
      | .backwards => p.tally d .first t
  | seq p q =>
    fork rank <| match d with
      | .forwards => q.tally d .first (p.tally d .first t)
      | .backwards => p.tally d .first (q.tally d .first t)
  | alt p q =>
    match rank, if rank = .first then (alt p q).words? else none with
    | .first, some words => t.words d words
    | .first, none => q.tally d .second (p.tally d .first t)
    | rank, _ => q.tally d .later (fork rank (p.tally d .first t))

/-- The automaton for an expression that is searched for.  Unless the end at which reading
begins is required, it passes over any bytes first. -/
def automaton (d : Direction) (p : Expr) : Tally :=
  let front (anchored : Bool) : Tally :=
    if anchored then Tally.plain 1 {} else ((Tally.forking 2 {}).plain 1).branching 1
  match d with
  | .forwards => (p.tally d .first ((front p.fromStart).plain 1)).plain 2
  | .backwards => (p.tally d .first (front p.toStop)).plain 1

/-- The automaton for an expression is not too large. -/
def fits (p : Expr) : Bool :=
  (p.automaton .forwards).size ≤ Tally.maxSize && (p.automaton .backwards).size ≤ Tally.maxSize

end Expr

end Pattern

end ObjectFile.Tool
