import ObjectFile.Report
import ObjectFile.Json
/-!
# Objects as documents

The JSON document of an object: its references, the symbols whose names pass a filter, each
with its name, and the size of the data segment.  The references are all there, so that
indices keep their meaning.  Fields are listed in the order of their names.
-/

namespace ObjectFile

/-- A 64-bit number as a document. -/
def Json.number (n : Int64) : Json := .integer n.toInt

/-- Numbers as a document. -/
def Json.numbers (ns : List Int64) : Json := .array (ns.map Json.number)

namespace Document

open Json (number numbers)

/-- A reference. -/
def reference (r : Reference) : Json := .object [
  ("name", .text r.name),
  ("version", number r.version)]

/-- A block. -/
def block (b : Block) : Json := .object [
  ("offset", number b.offset),
  ("size", number b.size)]

/-- A relocation. -/
def relocation (r : Relocation) : Json := .object [
  ("add", number r.addend),
  ("id_index", number r.target),
  ("offset", number r.offset),
  ("size", number r.size),
  ("type", .text r.kind.name)]

/-- A variable, an argument or a result. -/
def localVariable (l : Local) : Json := .object [
  ("go_type_index", number l.type),
  ("offset", number l.offset),
  ("symbol_index", number l.id),
  ("var_type", number l.variableKind)]

/-- The function part of a symbol. -/
def function (f : Function) : Json := .object [
  ("args", number f.args),
  ("aux_tables", .array (f.auxTables.map block)),
  ("c_func", .bool f.cFunction),
  ("file_indices", numbers f.fileIds),
  ("file_table", block f.fileTable),
  ("frame", number f.frame),
  ("func_data_offsets", numbers f.dataOffsets),
  ("func_data_refs", numbers f.dataIds),
  ("inline_table", block f.inlineTable),
  ("leaf", .bool f.leaf),
  ("line_table", block f.lineTable),
  ("locals", .array (f.locals.map localVariable)),
  ("no_split", .bool f.noSplit),
  ("shared_func", .bool f.shared),
  ("stack_map", block f.stackMap),
  ("type_method", .bool f.typeMethod)]

/-- A symbol with its name.  A symbol without a function part has no field for it. -/
def symbol (s : Symbol) (name : String) : Json := .object (
  [("data_addr", block s.block), ("dup_ok", .bool s.duplicateOk)] ++
  (s.function.map fun f => ("extended", function f)).toList ++
  [("go_type_index", number s.type),
    ("id_index", number s.id),
    ("kind", .text s.kind.name),
    ("local", .bool s.isLocal),
    ("name", .text name),
    ("relocations", .array (s.relocations.map relocation)),
    ("size", number s.size),
    ("typelink", .bool s.typeLink)])

end Document

/-- The document of an object. -/
def Object.document (o : Object) (filter : Option (String → Bool)) : Json := .object [
  ("data_len", .integer o.data.length),
  ("references", .array (o.references.toList.map Document.reference)),
  ("symbols", .array (o.symbols.filterMap fun s =>
    let name := o.nameAt s.id
    match filter with
    | none => some (Document.symbol s name)
    | some chooses => if chooses name then some (Document.symbol s name) else none))]

/-- A document as it is written. -/
def Json.pretty (j : Json) : String := j.render 0

end ObjectFile
