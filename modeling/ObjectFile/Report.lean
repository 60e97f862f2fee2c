import ObjectFile.Object
import ObjectFile.Table
/-!
# Reports

What an object file defines, as text tables: its symbols, the data of its functions and, if
asked for, its relocations.  A filter chooses by their names the symbols that are shown; the
names and addresses that are shown beside them are those of the whole object.
-/

namespace ObjectFile

/-- The reference of an index; the empty one if there is none. -/
def Object.referenceAt (o : Object) (index : Int64) : Reference :=
  (o.reference? index).getD .empty

namespace Report

/-- The headers of the table of symbols. -/
def symbolColumns : List String :=
  ["Offset", "Size", "Type", "DupOK", "Local", "MakeTypeLink", "Name", "Version", "GoType"]

/-- The headers of the table of functions. -/
def functionColumns : List String := ["Name", "FuncData"]

/-- The headers of the table of relocations. -/
def relocationColumns : List String := ["Symbol", "Offset", "Size", "Type", "SymbolName+Add"]

/-- A truth value as it is shown. -/
def truth (b : Bool) : String := if b then "true" else "false"

/-- Whether a filter lets a name pass.  Without a filter all names pass. -/
def includes (filter : Option (String → Bool)) (name : String) : Bool :=
  match filter with
  | none => true
  | some chooses => chooses name

/-- The line of a symbol that belongs to a reference. -/
def symbolRow (o : Object) (s : Symbol) (reference : Reference) : List String :=
  [Numeral.signedHex s.block.offset.toInt, Numeral.signedHex s.size.toInt, s.kind.name,
    truth s.duplicateOk, truth s.isLocal, truth s.typeLink, reference.name,
    Numeral.decimal reference.version.toInt, o.nameAt s.type]

/-- The table of symbols. -/
def symbols (o : Object) (filter : Option (String → Bool)) : Table :=
  ⟨symbolColumns, o.symbols.filterMap fun s =>
    let reference := o.referenceAt s.id
    if includes filter reference.name then some (symbolRow o s reference) else none⟩

/-- One piece of a function's data: its number, its name and the block of the symbol that
defines it. -/
def dataEntry (o : Object) (index : SymbolIndex) (number : Nat) (id : Int64) : String :=
  let block := ((index.find? id).map Symbol.block).getD ⟨0, 0⟩
  Numeral.natural number ++ " - " ++ o.nameAt id ++
    " (" ++ Numeral.signedHex block.offset.toInt ++ " - " ++ Numeral.decimal block.size.toInt ++ ")"

/-- All of a function's data. -/
def dataSummary (o : Object) (index : SymbolIndex) (s : Symbol) : String :=
  match s.function with
  | none => ""
  | some f => String.intercalate ", " (f.dataIds.mapIdx (dataEntry o index))

/-- The table of functions. -/
def functions (o : Object) (filter : Option (String → Bool)) : Table :=
  let index := o.index
  ⟨functionColumns, o.executables.filterMap fun s =>
    let name := o.nameAt s.id
    if includes filter name then some [name, dataSummary o index s] else none⟩

/-- The line of a relocation of a symbol. -/
def relocationRow (o : Object) (owner : String) (r : Relocation) : List String :=
  [owner, Numeral.signedHex r.offset.toInt, Numeral.signedHex r.size.toInt, r.kind.name,
    o.nameAt r.target ++ "+" ++ Numeral.decimal r.addend.toInt]

/-- The table of relocations. -/
def relocations (o : Object) (filter : Option (String → Bool)) : Table :=
  ⟨relocationColumns, o.symbols.flatMap fun s =>
    let owner := o.nameAt s.id
    if includes filter owner then s.relocations.map (relocationRow o owner) else []⟩

end Report

namespace Object

/-- The report on an object. -/
def report (o : Object) (filter : Option (String → Bool)) (withRelocations : Bool) : String :=
  "The list of defined symbols:\n" ++ (Report.symbols o filter).text ++
    "\nThe optional fields of STEXT-typed symbols:\n" ++ (Report.functions o filter).text ++
    if withRelocations then
      "\nThe list of relocations:\n" ++ (Report.relocations o filter).text
    else ""

/-- Prints the report on an object. -/
def printReport (o : Object) (filter : Option (String → Bool)) (withRelocations : Bool) :
    Printed :=
  .inOrder <|
    [.complete "The list of defined symbols:\n", (Report.symbols o filter).print,
      .complete "\nThe optional fields of STEXT-typed symbols:\n",
      (Report.functions o filter).print] ++
    if withRelocations then
      [.complete "\nThe list of relocations:\n", (Report.relocations o filter).print]
    else []

end Object

end ObjectFile
