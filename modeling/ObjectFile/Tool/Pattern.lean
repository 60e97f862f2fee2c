import ObjectFile.Tool.Pattern.Machine
import ObjectFile.Tool.Pattern.Parser
import ObjectFile.Tool.Pattern.Size
/-!
# The patterns of the tool

A pattern is searched for in texts.  It is read once (`Pattern.parse`) and refused if it is
written wrongly, nested too deep, or too large.  It is never too large if it comes down to
a few words.

The command takes patterns from a library, and what is said of it is said for every library.
This one is what the tool is run with.
-/

namespace ObjectFile.Tool

/-- A pattern to search for. -/
inductive Pattern where
  /-- It is searched for by a machine. -/
  | machine (m : Pattern.Machine)
  /-- It occurs where one of some words does. -/
  | words (words : List (List UInt8))
deriving Repr

namespace Pattern

/-- The pattern of an expression, unless it is too large. -/
def ofExpr? (p : Expr) : Option Pattern :=
  if p.fits then some (machine p.machine) else p.asWords?.map words

/-- The pattern of a text. -/
def parse (text : String) : Option Pattern := do
  let tree ← Tree.parse text
  if tree.depth ≤ Tree.maxDepth then ofExpr? (tree.expr {}).1 else none

/-- One of some words stands somewhere in a sequence of bytes. -/
def wordOccurs (words : List (List UInt8)) : List UInt8 → Bool
  | [] => words.any List.isEmpty
  | b :: bs => words.any (·.isPrefixOf (b :: bs)) || wordOccurs words bs

/-- Whether some part of a text matches. -/
def occursIn (p : Pattern) (text : String) : Bool :=
  match p with
  | machine m => m.search none text.toList
  | words ws => wordOccurs ws (text.toList.flatMap String.utf8EncodeChar)

end Pattern

end ObjectFile.Tool
