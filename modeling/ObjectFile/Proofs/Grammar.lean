import Mathlib.Algebra.Group.Int.Defs
import Mathlib.Algebra.Group.Nat.Defs
import Mathlib.Data.List.Forall2
import ObjectFile.Container
/-!
# The words of the format

Which strings of bytes are object files, and what they are about.  The grammar is a relation
between strings of bytes and what they denote, one for each part of the format; it mentions
no parser.

A number has many words, of which the one that `Varint.encode` writes is the shortest; the
other parts have as many words as the numbers in them.

A word of a container denotes the parts of the container (`Grammar.File`), and these say
what the object is (`Container.Describes`): everything that the records hold but the bits
without a meaning and the inlined calls, and for every block the offset that comes of the
sizes of the blocks before it.
-/

namespace ObjectFile

namespace Grammar

variable {α : Type}

/-! ## Lists of words -/

/-- Words of the items of a list, one behind another. -/
inductive Sequence (item : List UInt8 → α → Prop) : List UInt8 → List α → Prop where
  | nil : Sequence item [] []
  | cons {u v : List UInt8} {a : α} {as : List α} (head : item u a)
      (tail : Sequence item v as) : Sequence item (u ++ v) (a :: as)

/-- Words of the given parts, one behind another. -/
def InOrder : List (List UInt8 → Prop) → List UInt8 → Prop
  | [], w => w = []
  | part :: parts, w => ∃ u v, w = u ++ v ∧ part u ∧ InOrder parts v

theorem inOrder_nil : InOrder [] [] := rfl

theorem inOrder_cons {part : List UInt8 → Prop} {parts : List (List UInt8 → Prop)}
    {u v : List UInt8} (hu : part u) (hv : InOrder parts v) : InOrder (part :: parts) (u ++ v) :=
  ⟨u, v, rfl, hu, hv⟩

/-- The last part. -/
theorem inOrder_last {part : List UInt8 → Prop} {u : List UInt8} (hu : part u) :
    InOrder [part] u :=
  ⟨u, [], by simp, hu, rfl⟩

/-! ## Numbers and text -/

/-- What groups of seven bits denote, the lowest group first. -/
def base128 : List UInt8 → Nat
  | [] => 0
  | b :: bytes => b.toNat % 128 + 128 * base128 bytes

/-- What 0, 1, 2, 3, 4, … stand for: 0, -1, 1, -2, 2, …. -/
def zigzag (n : Nat) : Int := if n % 2 = 0 then (n / 2 : Nat) else -(n / 2 : Nat) - 1

/-- At most so many bytes, of which all but the last have their high bit set. -/
def Groups (most : Nat) (w : List UInt8) : Prop :=
  ∃ front last, w = front ++ [last] ∧ front.length < most ∧ (∀ b ∈ front, 0x80 ≤ b) ∧
    last < 0x80

/-- The words of a signed number.  Bits beyond the sixty-fourth do not count. -/
def Number (w : List UInt8) (n : Int64) : Prop :=
  Groups 10 w ∧ n.toInt = zigzag (base128 w % 2 ^ 64)

/-- Numbers one behind another. -/
abbrev Numbers : List UInt8 → List Int64 → Prop := Sequence Number

/-- Items behind their number; a negative number stands for no items. -/
def Counted (item : List UInt8 → α → Prop) (w : List UInt8) (as : List α) : Prop :=
  ∃ count : Int64, as.length = count.toInt.toNat ∧
    InOrder [(Number · count), (Sequence item · as)] w

/-- The words of a length: those of a number that is not negative. -/
def Length (w : List UInt8) (size : Nat) : Prop := ∃ n : Int64, n.toInt = size ∧ Number w n

/-- The words of a text: its length in bytes and these bytes. -/
def Text (w : List UInt8) (text : String) : Prop :=
  ∃ bytes : List UInt8, text = Utf8.decode bytes ∧
    InOrder [(Length · bytes.length), (· = bytes)] w

/-- The bit at a place of a number is set, where negative numbers are taken as complements of
two. -/
def HasBit (n : Int64) (place : Nat) : Prop := n.toInt / 2 ^ place % 2 = 1

/-! ## Records -/

/-- The words of a reference. -/
def Reference (w : List UInt8) (r : ObjectFile.Reference) : Prop :=
  InOrder [(Text · r.name), (Number · r.version)] w

/-- The words of a relocation. -/
def Relocation (w : List UInt8) (r : ObjectFile.Relocation) : Prop :=
  InOrder
    [(Number · r.offset), (Number · r.size), (Number · r.kind.code), (Number · r.addend),
      (Number · r.target)] w

/-- The words of a variable, an argument or a result. -/
def Local (w : List UInt8) (l : ObjectFile.Local) : Prop :=
  InOrder [(Number · l.id), (Number · l.offset), (Number · l.variableKind), (Number · l.type)] w

/-- The words of an inlined call. -/
def InlinedCall (w : List UInt8) (c : ObjectFile.InlinedCall) : Prop :=
  InOrder [(Number · c.parent), (Number · c.file), (Number · c.line), (Number · c.callee)] w

/-- The words of a function's data: how many there are, all indices, then all offsets. -/
def FunctionData (w : List UInt8) (data : List (Int64 × Int64)) : Prop :=
  ∃ count : Int64, data.length = count.toInt.toNat ∧
    InOrder [(Number · count), (Numbers · (data.map Prod.fst)),
      (Numbers · (data.map Prod.snd))] w

/-- The words of the function part of a record. -/
def FunctionRecord (w : List UInt8) (f : ObjectFile.FunctionRecord) : Prop :=
  InOrder
    [(Number · f.args), (Number · f.frame), (Number · f.flags), (Number · f.noSplit),
      (Counted Local · f.locals),
      (Number · f.stackMapSize), (Number · f.fileTableSize), (Number · f.lineTableSize),
      (Number · f.inlineTableSize),
      (Counted Number · f.auxTableSizes),
      (FunctionData · f.data),
      (Counted Number · f.fileIds),
      (Counted InlinedCall · f.inlined)] w

/-- The words of the function part of a record, if there is one. -/
def FunctionPart (w : List UInt8) : Option ObjectFile.FunctionRecord → Prop
  | none => w = []
  | some f => FunctionRecord w f

/-- The words of a symbol record.  It has a function part just if its number is 1. -/
def SymbolRecord (w : List UInt8) (r : ObjectFile.SymbolRecord) : Prop :=
  (r.function.isSome ↔ r.kind.toByte = 1) ∧
    InOrder
      [(· = [r.kind.toByte]),
        (Number · r.id), (Number · r.flags), (Number · r.size), (Number · r.type),
        (Number · r.dataSize),
        (Counted Relocation · r.relocations),
        (FunctionPart · r.function)] w

/-- The words of a table: records, each behind a marker, and the marker of the end. -/
def Table (record : List UInt8 → α → Prop) (w : List UInt8) (as : List α) : Prop :=
  InOrder
    [(Sequence (fun v a => InOrder [(· = [recordMarker]), (record · a)] v) · as),
      (· = [endMarker])] w

/-! ## Files -/

/-- Noise and the magic word behind it, which does not occur before. -/
def Opening (w : List UInt8) (noise : List UInt8) : Prop :=
  w = noise ++ Envelope.opening ∧ ¬ Envelope.opening <:+: w.dropLast

/-- The words of the front of the data segment. -/
def SegmentHead (w : List UInt8) (head : ObjectFile.SegmentHead) : Prop :=
  InOrder
    [(Length · head.size), (Number · head.hints.relocations), (Number · head.hints.tables),
      (Number · head.hints.locals), (Number · head.hints.functionData),
      (Number · head.hints.files)] w

/-- The words of a container, from the first byte of the noise to the last one of the
footer. -/
def File (w : List UInt8) (c : Container) : Prop :=
  0 ∉ c.dependencies ∧
    InOrder
      [(Opening · c.noise),
        (· = [Envelope.currentVersion]),
        (· = c.dependencies ++ [0]),
        (Table Reference · c.references),
        (SegmentHead · ⟨c.data.length, c.hints⟩),
        (· = c.data),
        (Table SymbolRecord · c.symbols),
        (· = Envelope.closing)] w

end Grammar

/-! ## What the parts of a container are about -/

/-- The blocks lie one behind another from offset zero on: the offset of each is the sum of
the sizes of those before it, where sums wrap around. -/
def Block.Placed (blocks : List Block) : Prop :=
  ∀ (k : Nat) (h : k < blocks.length),
    blocks[k].offset = ((blocks.take k).map Block.size).sum

/-- What the function of a record is, but for the offsets of its blocks. -/
structure FunctionRecord.Describes (r : FunctionRecord) (f : Function) : Prop where
  args : f.args = r.args
  frame : f.frame = r.frame
  leaf : f.leaf = true ↔ Grammar.HasBit r.flags 0
  cFunction : f.cFunction = true ↔ Grammar.HasBit r.flags 1
  typeMethod : f.typeMethod = true ↔ Grammar.HasBit r.flags 2
  shared : f.shared = true ↔ Grammar.HasBit r.flags 3
  noSplit : f.noSplit = true ↔ r.noSplit ≠ 0
  locals : f.locals = r.locals
  stackMap : f.stackMap.size = r.stackMapSize
  fileTable : f.fileTable.size = r.fileTableSize
  lineTable : f.lineTable.size = r.lineTableSize
  inlineTable : f.inlineTable.size = r.inlineTableSize
  auxTables : f.auxTables.map Block.size = r.auxTableSizes
  dataIds : f.dataIds = r.data.map Prod.fst
  dataOffsets : f.dataOffsets = r.data.map Prod.snd
  fileIds : f.fileIds = r.fileIds

/-- What the symbol of a record is, but for the offsets of its blocks. -/
structure SymbolRecord.Describes (r : SymbolRecord) (s : Symbol) : Prop where
  id : s.id = r.id
  kind : s.kind = r.kind
  size : s.size = r.size
  duplicateOk : s.duplicateOk = true ↔ Grammar.HasBit r.flags 0
  isLocal : s.isLocal = true ↔ Grammar.HasBit r.flags 1
  typeLink : s.typeLink = true ↔ Grammar.HasBit r.flags 2
  type : s.type = r.type
  block : s.block.size = r.dataSize
  relocations : s.relocations = r.relocations
  function : Option.Rel FunctionRecord.Describes r.function s.function

/-- What the object of a container is. -/
structure Container.Describes (c : Container) (o : Object) : Prop where
  references : o.references.toList = Reference.empty :: c.references
  data : o.data = c.data
  symbols : List.Forall₂ SymbolRecord.Describes c.symbols o.symbols
  placed : Block.Placed (o.symbols.flatMap Symbol.blocks)

end ObjectFile
