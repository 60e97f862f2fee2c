import ObjectFile.Record
import ObjectFile.Varint
/-!
# Reading records

The parsers of the records of both tables, each in the order in which the file has the
fields, and of the tables themselves.  A list is stored behind the number of its items; a
number that is not positive stands for no items.  A table is a sequence of records, each
behind a marker, and ends at another marker (`Parser.records`).
-/

namespace ObjectFile

/-- The byte in front of every record. -/
def recordMarker : UInt8 := 0xFE

/-- The byte behind the last record of a table. -/
def endMarker : UInt8 := 0xFF

namespace Parser

variable {α : Type}

/-- Items behind their number. -/
def counted (item : Parser α) : Parser (List α) := do
  let count ← varint
  replicate count.toInt.toNat item

/-- A reference. -/
def reference : Parser Reference := do
  let name ← text
  let version ← varint
  return ⟨name, version⟩

/-- A relocation. -/
def relocation : Parser Relocation := do
  let offset ← varint
  let size ← varint
  let code ← varint
  let addend ← varint
  let target ← varint
  return ⟨offset, size, ⟨code⟩, addend, target⟩

/-- A variable, an argument or a result. -/
def localVariable : Parser Local := do
  let id ← varint
  let offset ← varint
  let variableKind ← varint
  let type ← varint
  return ⟨id, offset, variableKind, type⟩

/-- An inlined call. -/
def inlinedCall : Parser InlinedCall := do
  let parent ← varint
  let file ← varint
  let line ← varint
  let callee ← varint
  return ⟨parent, file, line, callee⟩

/-- The function's data: how many there are, all indices, then all offsets. -/
def functionData : Parser (List (Int64 × Int64)) := do
  let count ← varint
  let ids ← replicate count.toInt.toNat varint
  let offsets ← replicate count.toInt.toNat varint
  return ids.zip offsets

/-- The function part of a record. -/
def functionRecord : Parser FunctionRecord := do
  let args ← varint
  let frame ← varint
  let flags ← varint
  let noSplit ← varint
  let locals ← counted localVariable
  let stackMapSize ← varint
  let fileTableSize ← varint
  let lineTableSize ← varint
  let inlineTableSize ← varint
  let auxTableSizes ← counted varint
  let data ← functionData
  let fileIds ← counted varint
  let inlined ← counted inlinedCall
  return { args, frame, flags, noSplit, locals, stackMapSize, fileTableSize, lineTableSize,
           inlineTableSize, auxTableSizes, data, fileIds, inlined }

/-- A symbol record.  The kind alone decides whether a function part follows. -/
def symbolRecord : Parser SymbolRecord := do
  let number ← byte
  let kind := Symbol.Kind.ofByte number
  let id ← varint
  let flags ← varint
  let size ← varint
  let type ← varint
  let dataSize ← varint
  let relocations ← counted relocation
  if h : kind.isText then
    let f ← functionRecord
    return { kind, id, flags, size, type, dataSize, relocations
             function := some f, textual := h.symm }
  else
    return { kind, id, flags, size, type, dataSize, relocations
             function := none, textual := by simpa using h }

/-- The records of a table up to its end, as far as they can be read, and what came in the
way if something did. -/
def records (part : Section) (item : Parser α) : Parser (List α × Except Fault Unit) := do
  let (got, outcome) ← scan (fun got marker =>
    if marker = recordMarker then (fun a => .inl (a :: got)) <$> item
    else if marker = endMarker then return .inr ()
    else fail (.strayMarker part marker)) []
  return (got.reverse, outcome)

/-- The front of the data segment. -/
def segmentHead : Parser SegmentHead := do
  let size ← length "data segment"
  let relocations ← varint
  let tables ← varint
  let locals ← varint
  let functionData ← varint
  let files ← varint
  return ⟨size, relocations, tables, locals, functionData, files⟩

end Parser

end ObjectFile
