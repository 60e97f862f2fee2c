import ObjectFile.Printed
/-!
# Text tables

A table is a line of headers and lines of cells.  It is written with one blank in front of
every line and every cell followed by blanks up to the width of its column and one more.
The width of a column is the size in bytes of its widest entry, as the tools that read
these tables count bytes.  Lines may be shorter or longer than the headers; a column is
there as soon as some line has it.

A table has a text however wide its columns are (`Table.text`).  Where it is printed, blanks
are asked for by a number of sixteen bits: a cell that needs more of them is refused
(`Table.print`).
-/

namespace ObjectFile

/-- A table. -/
structure Table where
  /-- The entries of the first line. -/
  headers : List String
  /-- The entries of the other lines. -/
  rows : List (List String)
deriving DecidableEq, Repr

namespace Table

/-- All lines. -/
def lines (t : Table) : List (List String) := t.headers :: t.rows

/-- The widths of columns after one more line has been seen. -/
def widen : List Nat → List String → List Nat
  | widths, [] => widths
  | [], row => row.map String.utf8ByteSize
  | width :: widths, cell :: row => max width cell.utf8ByteSize :: widen widths row

/-- The width of each column. -/
def widths (t : Table) : List Nat := t.lines.foldl widen []

/-- Blanks. -/
def blanks (n : Nat) : String := String.ofList (List.replicate n ' ')

/-- A cell with the blanks that follow it. -/
def pad (cell : String) (width : Nat) : String :=
  cell ++ blanks (width - cell.utf8ByteSize + 1)

/-- A line as it is written. -/
def line (widths : List Nat) (row : List String) : String :=
  " " ++ String.join (List.zipWith pad row widths) ++ "\n"

/-- A table as it is written. -/
def text (t : Table) : String := String.join (t.lines.map (line t.widths))

/-! ## Printing -/

/-- The greatest number of blanks that can be asked for. -/
def mostBlanks : Nat := 65535

/-- Prints a cell and the blanks that follow it, unless these are too many. -/
def printCell (cell : String) (width : Nat) : Printed :=
  if width - cell.utf8ByteSize + 1 ≤ mostBlanks then .complete (pad cell width) else .broken ""

/-- Prints a line. -/
def printLine (widths : List Nat) (row : List String) : Printed :=
  .inOrder ([.complete " "] ++ List.zipWith printCell row widths ++ [.complete "\n"])

/-- Prints a table, one line behind another. -/
def print (t : Table) : Printed := .inOrder (t.lines.map (printLine t.widths))

end Table

end ObjectFile
