/-!
# Printing

A text is printed piece by piece, and it can happen that a piece is refused.  Then printing
breaks off, and what was printed before stays printed.
-/

namespace ObjectFile

/-- What has been printed of a text. -/
inductive Printed where
  /-- All of it. -/
  | complete (text : String)
  /-- What stands in front of a piece that was refused. -/
  | broken (text : String)
deriving DecidableEq, Repr

namespace Printed

/-- Goes on printing, if printing has not broken off. -/
def andThen : Printed → Printed → Printed
  | complete front, complete text => complete (front ++ text)
  | complete front, broken text => broken (front ++ text)
  | broken front, _ => broken front

/-- Prints one piece behind another. -/
def inOrder (pieces : List Printed) : Printed := pieces.foldr andThen (complete "")

end Printed

end ObjectFile
