import ObjectFile.Envelope
import ObjectFile.Object
import ObjectFile.Record.Parser
/-!
# Whole files

An object file as one who writes it sees it: the parts of a container, how each of them is
written, and the object that the container is about.  Every number is written in its
shortest form.

Reading takes no notice of noise, of the names of dependencies, of hints and of what
follows the footer; `Container.WellFormed` says when they do not get in the way of the rest.
-/

namespace ObjectFile

/-! ## Writing records -/

/-- Items behind their number. -/
def writeCounted {α : Type} (write : α → List UInt8) (items : List α) : List UInt8 :=
  Varint.encode (Int64.ofNat items.length) ++ items.flatMap write

/-- Numbers one after another. -/
def writeNumbers (ns : List Int64) : List UInt8 := ns.flatMap Varint.encode

/-- A reference as it is written. -/
def Reference.write (r : Reference) : List UInt8 :=
  Varint.encodeText r.name ++ Varint.encode r.version

/-- A relocation as it is written. -/
def Relocation.write (r : Relocation) : List UInt8 :=
  writeNumbers [r.offset, r.size, r.kind.code, r.addend, r.target]

/-- A variable, an argument or a result as it is written. -/
def Local.write (l : Local) : List UInt8 :=
  writeNumbers [l.id, l.offset, l.variableKind, l.type]

/-- An inlined call as it is written. -/
def InlinedCall.write (c : InlinedCall) : List UInt8 :=
  writeNumbers [c.parent, c.file, c.line, c.callee]

/-- The function part of a record as it is written. -/
def FunctionRecord.write (f : FunctionRecord) : List UInt8 :=
  writeNumbers [f.args, f.frame, f.flags, f.noSplit] ++
    writeCounted Local.write f.locals ++
    writeNumbers [f.stackMapSize, f.fileTableSize, f.lineTableSize, f.inlineTableSize] ++
    writeCounted Varint.encode f.auxTableSizes ++
    writeCounted (fun d => Varint.encode d.1) f.data ++ writeNumbers (f.data.map Prod.snd) ++
    writeCounted Varint.encode f.fileIds ++
    writeCounted InlinedCall.write f.inlined

/-- A record as it is written. -/
def SymbolRecord.write (r : SymbolRecord) : List UInt8 :=
  r.kind.toByte :: writeNumbers [r.id, r.flags, r.size, r.type, r.dataSize] ++
    writeCounted Relocation.write r.relocations ++
    (r.function.map FunctionRecord.write).getD []

/-- A table of records. -/
def writeTable {α : Type} (write : α → List UInt8) (records : List α) : List UInt8 :=
  records.flatMap (fun r => recordMarker :: write r) ++ [endMarker]

/-! ## Writing files -/

/-- The parts of an object file. -/
structure Container where
  /-- What comes before the header. -/
  noise : List UInt8
  /-- The names of dependencies. -/
  dependencies : List UInt8
  /-- The references but for the empty one. -/
  references : List Reference
  /-- The hints. -/
  hints : SizingHints
  /-- The data segment. -/
  data : List UInt8
  /-- The symbols. -/
  symbols : List SymbolRecord
  /-- What comes after the footer. -/
  trailing : List UInt8

namespace Container

/-- A file as it is written. -/
def write (c : Container) : List UInt8 :=
  c.noise ++ Envelope.opening ++ [Envelope.currentVersion] ++
    c.dependencies ++ [0] ++
    writeTable Reference.write c.references ++
    Varint.encode (Int64.ofNat c.data.length) ++ writeNumbers c.hints.toList ++ c.data ++
    writeTable SymbolRecord.write c.symbols ++
    Envelope.closing ++ c.trailing

/-- The object that a file is about. -/
def object (c : Container) : Object where
  references := (Reference.empty :: c.references).toArray
  symbols := SymbolRecord.placeAll 0 c.symbols
  data := c.data

/-- The noise holds no header and the names of dependencies no zero byte. -/
structure WellFormed (c : Container) : Prop where
  noise : ¬ Envelope.opening <:+: c.noise
  dependencies : 0 ∉ c.dependencies

end Container

end ObjectFile
