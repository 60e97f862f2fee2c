import ObjectFile.Tool.Pattern.Tree
/-!
# Reading patterns

A pattern is first cut into tokens, each of at least one character, and the tokens are then
put together with a stack that holds one frame for each group that is open.

Letters and digits stand for themselves, as does every character without another meaning.
`.` is any character but the end of a line; `[…]` and `[^…]` are classes; `^` and `$` are the
beginning and the end of the text; `|`, `(…)` and `(?:…)` choose and group, and a group may
have a name; `*`, `+`, `?`, `{n}`, `{n,}` and `{n,m}` repeat what stands before them, and with
a `?` behind one of these few repetitions are preferred.
`\d`, `\s`, `\w` and their capitals are classes, `\b`, `\B`, `\<` and `\>` the boundaries
of words, and any other sign of ASCII behind `\` stands for itself.  `(?i)` lets case be
disregarded up to the end of the group, and there are some more modes.  Anything else is no
pattern.
-/

namespace ObjectFile.Tool.Pattern

/-! ## Escapes -/

/-- What stands behind `\`. -/
inductive Escape where
  | char (c : Char)
  | named (s : CharSet)
  | anchor (a : Anchor)
deriving DecidableEq, Repr

/-- The value of a hexadecimal digit. -/
def hexValue? (c : Char) : Option Nat :=
  if c.isDigit then some (c.toNat - '0'.toNat)
  else if 'a' ≤ c ∧ c ≤ 'f' then some (c.toNat - 'a'.toNat + 10)
  else if 'A' ≤ c ∧ c ≤ 'F' then some (c.toNat - 'A'.toNat + 10)
  else none

/-- The character whose number is given by hexadecimal digits. -/
def charOfHex? (cs : List Char) : Option Char := do
  let digits ← cs.mapM hexValue?
  let n := digits.foldl (fun n d => n * 16 + d) 0
  if digits.isEmpty ∨ ¬ n.isValidChar then none else some (Char.ofNat n)

/-- A character by its number, in braces or with so many digits, and what stands behind. -/
def hexChar? (count : Nat) : List Char → Option (Char × List Char)
  | '\x7b' :: cs =>
    match cs.dropWhile (· ≠ '\x7d') with
    | [] => none
    | _ :: rest => (charOfHex? (cs.takeWhile (· ≠ '\x7d'))).map (·, rest)
  | cs =>
    if cs.length < count then none else (charOfHex? (cs.take count)).map (·, cs.drop count)

/-- What `\b` stands for, and what stands behind: in braces it may be told which boundary is
meant.  Braces with anything but letters at their beginning are a repetition. -/
def boundary? : List Char → Option (Anchor × List Char)
  | '\x7b' :: cs =>
    let named (c : Char) : Bool := c.isAlpha || c = '-'
    match cs with
    | [] => none
    | c :: _ =>
      if named c then
        match String.ofList (cs.takeWhile named), cs.dropWhile named with
        | "start", '\x7d' :: rest => some (.wordStart, rest)
        | "end", '\x7d' :: rest => some (.wordStop, rest)
        | "start-half", '\x7d' :: rest => some (.notAfterWord, rest)
        | "end-half", '\x7d' :: rest => some (.notBeforeWord, rest)
        | _, _ => none
      else some (.boundary, '\x7b' :: cs)
  | cs => some (.boundary, cs)

/-- What stands behind `\`, and what stands behind that. -/
def escape? : List Char → Option (Escape × List Char)
  | [] => none
  | 'd' :: cs => some (.named Character.digits, cs)
  | 'D' :: cs => some (.named Character.digits.compl, cs)
  | 's' :: cs => some (.named Character.blanks, cs)
  | 'S' :: cs => some (.named Character.blanks.compl, cs)
  | 'w' :: cs => some (.named Character.words, cs)
  | 'W' :: cs => some (.named Character.words.compl, cs)
  | 'b' :: cs => (boundary? cs).map fun (a, rest) => (.anchor a, rest)
  | 'B' :: cs => some (.anchor .inside, cs)
  | '<' :: cs => some (.anchor .wordStart, cs)
  | '>' :: cs => some (.anchor .wordStop, cs)
  | 'A' :: cs => some (.anchor .start, cs)
  | 'z' :: cs => some (.anchor .stop, cs)
  | 'n' :: cs => some (.char '\n', cs)
  | 't' :: cs => some (.char '\t', cs)
  | 'r' :: cs => some (.char '\r', cs)
  | 'f' :: cs => some (.char '\x0c', cs)
  | 'v' :: cs => some (.char '\x0b', cs)
  | 'a' :: cs => some (.char '\x07', cs)
  | 'x' :: cs => (hexChar? 2 cs).map fun (c, rest) => (.char c, rest)
  | 'u' :: cs => (hexChar? 4 cs).map fun (c, rest) => (.char c, rest)
  | 'U' :: cs => (hexChar? 8 cs).map fun (c, rest) => (.char c, rest)
  | c :: cs => if c.toNat < 0x80 && !c.isAlphanum then some (.char c, cs) else none

/-! ## Classes within brackets -/

/-- The ASCII class of a name. -/
def asciiClass? (name : String) : Option CharSet :=
  let ranges : Option (List (Char × Char)) := match name with
    | "alnum" => some [('0', '9'), ('A', 'Z'), ('a', 'z')]
    | "alpha" => some [('A', 'Z'), ('a', 'z')]
    | "ascii" => some [('\x00', '\x7f')]
    | "blank" => some [('\t', '\t'), (' ', ' ')]
    | "cntrl" => some [('\x00', '\x1f'), ('\x7f', '\x7f')]
    | "digit" => some [('0', '9')]
    | "graph" => some [('!', '~')]
    | "lower" => some [('a', 'z')]
    | "print" => some [(' ', '~')]
    | "punct" => some [('!', '/'), (':', '@'), ('[', '\x60'), ('\x7b', '~')]
    | "space" => some [('\t', '\r'), (' ', ' ')]
    | "upper" => some [('A', 'Z')]
    | "word" => some [('0', '9'), ('A', 'Z'), ('_', '_'), ('a', 'z')]
    | "xdigit" => some [('0', '9'), ('A', 'F'), ('a', 'f')]
    | _ => none
  ranges.map fun ranges => .ofRanges (ranges.map fun (first, last) => (first.toNat, last.toNat))

/-- An ASCII class behind its opening bracket, and what stands behind it, if that is what it
is: a name between colons. -/
def named? : List Char → Option (Class × List Char)
  | ':' :: cs =>
    let (negated, cs) := match cs with
      | '^' :: cs => (true, cs)
      | cs => (false, cs)
    match cs.dropWhile (· ≠ ':') with
    | ':' :: ']' :: rest =>
      (asciiClass? (String.ofList (cs.takeWhile (· ≠ ':')))).map fun s =>
        (if negated then .except s else .set s, rest)
    | _ => none
  | _ => none

/-- One character or class of a set. -/
def classAtom? : List Char → Option (Escape × List Char)
  | [] => none
  | '\\' :: cs => escape? cs
  | c :: cs => some (.char c, cs)

/-- A class of one character, or one that has a name. -/
def Escape.class? : Escape → Option Class
  | .char c => some (.set (.single c))
  | .named s => some (.set s)
  | .anchor _ => none

/-- One character, range or class that has a name, and what stands behind it.  A hyphen makes
a range unless a closing bracket or another hyphen follows it. -/
def classItem? (cs : List Char) : Option (Class × List Char) := do
  let (atom, rest) ← classAtom? cs
  let single := do return (← atom.class?, rest)
  match rest with
  | '-' :: ']' :: _ => single
  | '-' :: '-' :: _ => single
  | '-' :: cs =>
    let (other, rest) ← classAtom? cs
    match atom, other with
    | .char first, .char last =>
      if first ≤ last then some (.set (.range first last), rest) else none
    | _, _ => none
  | _ => single

/-- Brackets that are open. -/
structure ClassFrame where
  /-- Whether all other characters are meant. -/
  negated : Bool
  /-- What stands before the last operation, and the operation. -/
  left : Option (Class × Operation) := none
  /-- What stands behind it, the latest first. -/
  items : List Class := []

namespace ClassFrame

/-- Adds a class. -/
def add (f : ClassFrame) (c : Class) : ClassFrame := { f with items := c :: f.items }

/-- What stands between the brackets so far. -/
def content (f : ClassFrame) : Class :=
  let right : Class := match f.items with
    | [] => .set .empty
    | [c] => c
    | items => .union items.reverse
  match f.left with
  | some (left, o) => .operation o left right
  | none => right

/-- Goes on behind an operation, all of which bind alike and to the left. -/
def operate (f : ClassFrame) (o : Operation) : ClassFrame :=
  { f with left := some (f.content, o), items := [] }

/-- The class when the brackets are closed. -/
def close (f : ClassFrame) : Class := .brackets f.negated f.content

/-- Hyphens in front of a class stand for themselves, and so does a closing bracket that
would leave the class empty. -/
def skipFront (f : ClassFrame) : List Char → ClassFrame × List Char
  | '-' :: cs => skipFront (f.add (.set (.single '-'))) cs
  | ']' :: cs =>
    if f.items.isEmpty then (f.add (.set (.single ']')), cs) else (f, ']' :: cs)
  | cs => (f, cs)

/-- Brackets that have just been opened, with what belongs to the opening, and what stands
behind that. -/
def opened : List Char → ClassFrame × List Char
  | '^' :: cs => skipFront ⟨true, none, []⟩ cs
  | cs => skipFront ⟨false, none, []⟩ cs

end ClassFrame

/-- The class in brackets of which the innermost and the outer ones are open, and what
stands behind it; of at most so many characters. -/
def class? : Nat → ClassFrame → List ClassFrame → List Char → Option (Class × List Char)
  | 0, _, _, _ => none
  | fuel + 1, f, outer, cs =>
    match cs with
    | [] => none
    | '[' :: cs =>
      match named? cs with
      | some (c, rest) => class? fuel (f.add c) outer rest
      | none =>
        let (g, rest) := ClassFrame.opened cs
        class? fuel g (f :: outer) rest
    | ']' :: cs =>
      match outer with
      | [] => some (f.close, cs)
      | g :: outer => class? fuel (g.add f.close) outer cs
    | '&' :: '&' :: cs => class? fuel (f.operate .inter) outer cs
    | '-' :: '-' :: cs => class? fuel (f.operate .diff) outer cs
    | '~' :: '~' :: cs => class? fuel (f.operate .symmDiff) outer cs
    | cs => do
      let (item, rest) ← classItem? cs
      class? fuel (f.add item) outer rest

/-- A class behind its opening bracket, and what stands behind it. -/
def brackets? (cs : List Char) : Option (Class × List Char) :=
  let (f, rest) := ClassFrame.opened cs
  class? (rest.length + 1) f [] rest

/-! ## Repetitions -/

/-- A number with blanks around it, and what stands behind. -/
def bound? (cs : List Char) : Option (Nat × List Char) :=
  let cs := cs.dropWhile Character.isBlank
  let digits := cs.takeWhile Char.isDigit
  let n := digits.foldl (fun n d => n * 10 + (d.toNat - '0'.toNat)) 0
  if digits.isEmpty || UInt32.size ≤ n then none
  else some (n, (cs.dropWhile Char.isDigit).dropWhile Character.isBlank)

/-- The bounds of a repetition behind the opening brace, and what stands behind them. -/
def bounds? (cs : List Char) : Option (Nat × Option Nat × List Char) := do
  let (least, cs) ← bound? cs
  match cs with
  | '\x7d' :: cs => return (least, some least, cs)
  | ',' :: '\x7d' :: cs => return (least, none, cs)
  | ',' :: cs =>
    let (most, cs) ← bound? cs
    match cs with
    | '\x7d' :: cs => if least ≤ most then return (least, some most, cs) else none
    | _ => none
  | _ => none

/-! ## Modes and names -/

/-- The mode of a letter. -/
def mode? : Char → Option Mode
  | 'i' => some .caseless
  | 'm' => some .lines
  | 's' => some .dotAll
  | 'U' => some .swapped
  | 'u' => some .unicode
  | _ => none

/-- Letters for modes; those behind a hyphen turn them off.  No mode is given twice, and
characters are always those of Unicode. -/
def modes? (on : Bool) (got : ModeChange) : List Char → Option ModeChange
  | [] => some got.reverse
  | '-' :: cs => if on && !cs.isEmpty then modes? false got cs else none
  | c :: cs => do
    let mode ← mode? c
    if got.any (·.1 = mode) || (mode = .unicode && !on) then none
    else modes? on ((mode, on) :: got) cs

/-- The name of a group, and what stands behind it. -/
def name? (cs : List Char) : Option (List Char × List Char) :=
  let letter (c : Char) : Bool := c ≠ '_' && Character.isWord c && !Character.digits.contains c
  match cs.takeWhile (· ≠ '>'), cs.dropWhile (· ≠ '>') with
  | first :: name, _ :: rest =>
    if (letter first || first = '_') &&
        name.all fun c => Character.isWord c || c = '.' || c = '[' || c = ']' then
      some (first :: name, rest)
    else none
  | _, _ => none

/-! ## Tokens -/

/-- A piece of a pattern. -/
inductive Token where
  | item (p : Tree)
  | bar
  /-- Opens a group; `numbered` tells whether it has a number. -/
  | opening (numbered : Bool) (name : Option (List Char)) (c : ModeChange)
  | closing
  | times (least : Nat) (most : Option Nat) (greedy : Bool)

/-- What stands behind `(?`, and what stands behind that. -/
def special? (cs : List Char) : Option (Token × List Char) :=
  match cs with
  | 'P' :: '<' :: cs => do
    let (name, rest) ← name? cs
    return (.opening true (some name) [], rest)
  | '<' :: cs => do
    let (name, rest) ← name? cs
    return (.opening true (some name) [], rest)
  | cs => do
    let letters := cs.takeWhile fun c => c ≠ ':' && c ≠ ')'
    let change ← modes? true [] letters
    match cs.drop letters.length with
    | ':' :: rest => return (.opening false none change, rest)
    | ')' :: rest => if change.isEmpty then none else return (.item (.directive change), rest)
    | _ => none

/-- A repetition, and what stands behind it.  A `?` makes it prefer few. -/
def repetition (least : Nat) (most : Option Nat) : List Char → Token × List Char
  | '?' :: cs => (.times least most false, cs)
  | cs => (.times least most true, cs)

/-- The first token, and what stands behind it. -/
def token? : List Char → Option (Token × List Char)
  | [] => none
  | '\\' :: cs => do
    let (escape, rest) ← escape? cs
    match escape with
    | .char c => return (.item (.char c), rest)
    | .named s => return (.item (.named s), rest)
    | .anchor a => return (.item (.anchor a), rest)
  | '[' :: cs => do
    let (c, rest) ← brackets? cs
    return (.item (.brackets c), rest)
  | '(' :: '?' :: cs => special? cs
  | '(' :: cs => some (.opening true none [], cs)
  | ')' :: cs => some (.closing, cs)
  | '|' :: cs => some (.bar, cs)
  | '^' :: cs => some (.item .front, cs)
  | '$' :: cs => some (.item .back, cs)
  | '.' :: cs => some (.item .dot, cs)
  | '*' :: cs => some (repetition 0 none cs)
  | '+' :: cs => some (repetition 1 none cs)
  | '?' :: cs => some (repetition 0 (some 1) cs)
  | '\x7b' :: cs => do
    let (least, most, cs) ← bounds? cs
    return repetition least most cs
  | c :: cs => some (.item (.char c), cs)

/-- The tokens of a pattern of at most so many of them. -/
def tokens? : Nat → List Char → Option (List Token)
  | _, [] => some []
  | 0, _ :: _ => none
  | fuel + 1, c :: cs => do
    let (token, rest) ← token? (c :: cs)
    let tokens ← tokens? fuel rest
    return token :: tokens

/-! ## Groups -/

/-- A group that is open, or the whole. -/
structure Frame where
  /-- The number of the group. -/
  number : Option Nat := none
  /-- The modes of the group. -/
  change : ModeChange := []
  /-- The choices before the last bar, the latest first. -/
  before : List Tree := []
  /-- What has been read of the last choice, the latest first. -/
  sequence : List Tree := []

namespace Frame

/-- The whole content. -/
def content (f : Frame) : Tree := .ofAlt (.ofSeq f.sequence.reverse :: f.before).reverse

/-- The group when it is closed. -/
def close (f : Frame) : Tree := .group f.number f.change f.content

/-- Adds a part to the last choice. -/
def add (f : Frame) (p : Tree) : Frame := { f with sequence := p :: f.sequence }

end Frame

/-- What has been read of a pattern. -/
structure Reading where
  /-- The innermost group that is open. -/
  inner : Frame := {}
  /-- The groups around it, the next one first. -/
  outer : List Frame := []
  /-- How many groups have a number. -/
  numbered : Nat := 0
  /-- The names of groups. -/
  names : List (List Char) := []

namespace Reading

/-- Reads a token.  Neither nothing nor a directive can be repeated. -/
def push (r : Reading) : Token → Option Reading
  | .item p => some { r with inner := r.inner.add p }
  | .bar =>
    let f := r.inner
    some { r with
      inner := { f with before := .ofSeq f.sequence.reverse :: f.before, sequence := [] } }
  | .opening numbered name change =>
    if name.any (r.names.contains ·) then none
    else
      let count := if numbered then r.numbered + 1 else r.numbered
      some {
        inner := { number := if numbered then some count else none, change }
        outer := r.inner :: r.outer
        numbered := count
        names := name.toList ++ r.names }
  | .closing =>
    match r.outer with
    | [] => none
    | f :: outer => some { r with inner := f.add r.inner.close, outer }
  | .times least most greedy =>
    match r.inner.sequence with
    | [] => none
    | .directive _ :: _ => none
    | p :: sequence =>
      let q := p.times least most greedy
      some { r with inner := { r.inner with sequence := q :: sequence } }

end Reading

/-- The tree of a text. -/
def Tree.parse (text : String) : Option Tree := do
  let cs := text.toList
  let tokens ← tokens? cs.length cs
  let reading ← tokens.foldlM Reading.push {}
  if reading.outer.isEmpty then return reading.inner.content else none

end ObjectFile.Tool.Pattern
