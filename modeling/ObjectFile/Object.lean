import Std.Data.HashMap
import ObjectFile.Symbol
/-!
# Objects

What an object file defines, all of it read: the table of references, the symbols in the
order of the file, and the data segment.  Nothing here promises that an index or a block
lies in its bounds, so every question has an answer for indices and blocks that do not.

Symbols are looked up by index through a `SymbolIndex`, which is built once and holds the
place of the first symbol of each index.
-/

namespace ObjectFile

/-- An object file. -/
structure Object where
  /-- The references; in an object that was read the first one is empty. -/
  references : Array Reference
  /-- The symbols. -/
  symbols : List Symbol
  /-- The data segment. -/
  data : List UInt8
deriving DecidableEq

namespace Object

/-- The reference of an index. -/
def reference? (o : Object) (index : Int64) : Option Reference :=
  if 0 ≤ index then o.references[index.toInt.toNat]? else none

/-- The name behind an index; empty if there is none. -/
def nameAt (o : Object) (index : Int64) : String :=
  ((o.reference? index).map Reference.name).getD ""

/-- The bytes of a block, if all of it lies in the data segment. -/
def bytes? (o : Object) (b : Block) : Option (List UInt8) :=
  match b.range? with
  | some (first, last) =>
    if last ≤ o.data.length then some ((o.data.drop first).take (last - first)) else none
  | none => none

/-- The executable symbols. -/
def executables (o : Object) : List Symbol := o.symbols.filter (·.kind.isText)

end Object

/-- Symbols with the place of the first one of each index. -/
structure SymbolIndex where
  /-- The symbols. -/
  symbols : Array Symbol
  /-- The places by index. -/
  places : Std.HashMap Int64 Nat

namespace SymbolIndex

/-- Enters a symbol with its place; an index that is taken stays with its first symbol. -/
def enter (places : Std.HashMap Int64 Nat) (entry : Symbol × Nat) : Std.HashMap Int64 Nat :=
  places.insertIfNew entry.1.id entry.2

/-- Enters symbols in their order. -/
def ofSymbols (symbols : List Symbol) : SymbolIndex where
  symbols := symbols.toArray
  places := symbols.zipIdx.foldl enter ∅

/-- The first symbol of an index. -/
def find? (index : SymbolIndex) (id : Int64) : Option Symbol :=
  index.places[id]?.bind fun place => index.symbols[place]?

end SymbolIndex

/-- The index of an object's symbols. -/
def Object.index (o : Object) : SymbolIndex := .ofSymbols o.symbols

end ObjectFile
