import ObjectFile.Numeral
/-!
# Symbols

What an object file defines.  A symbol has a kind, belongs to a reference (a name and a
version) that it points at by index, and owns a block of the data segment; relocations say
which places of that block are to be patched and with what.  An executable symbol carries a
function part, which owns further blocks.

Indices are kept as the file has them and need not be those of any reference.
-/

namespace ObjectFile

/-- A name and a version, which symbols and relocations point at by index. -/
structure Reference where
  /-- The name. -/
  name : String
  /-- The version. -/
  version : Int64
deriving DecidableEq, Repr, Inhabited

/-- The reference that stands first in every table and for every index out of range. -/
def Reference.empty : Reference := ⟨"", 0⟩

/-- A block of the data segment. -/
structure Block where
  /-- The number of bytes that the file claims for the block. -/
  size : Int64
  /-- The offset of the first byte. -/
  offset : Int64
deriving DecidableEq, Repr, Inhabited

namespace Block

/-- The offset behind a block; sums of offsets and sizes wrap around. -/
def stop (b : Block) : Int64 := b.offset + b.size

/-- Blocks of the given sizes, each beginning where the one before it stops. -/
def consecutive (start : Int64) : List Int64 → List Block
  | [] => []
  | size :: sizes => ⟨size, start⟩ :: consecutive (start + size) sizes

/-- The offset behind consecutive blocks of the given sizes. -/
def stopAfter (start : Int64) (sizes : List Int64) : Int64 := sizes.foldl (· + ·) start

/-- Where a block begins and where it stops, unless its size or its offset is negative.  The
sum does not wrap around here: two numbers of 63 bits have a sum of 64 bits. -/
def range? (b : Block) : Option (Nat × Nat) :=
  if 0 ≤ b.offset ∧ 0 ≤ b.size then
    some (b.offset.toInt.toNat, b.offset.toInt.toNat + b.size.toInt.toNat)
  else none

end Block

/-! ## Kinds -/

/-- The storage class of a symbol.  Kinds are those that a number stands for: a kind that is
called unknown although its number is assigned can be built by hand, but no file is read as one,
and it is left out here. -/
inductive Symbol.Kind where
  | invalid
  /-- Executable instructions. -/
  | text
  /-- Read-only data. -/
  | readOnlyData
  /-- Data without pointers. -/
  | plainData
  | data
  /-- Memory that is zero at first. -/
  | zeroed
  /-- Memory without pointers that is zero at first. -/
  | plainZeroed
  /-- Memory of a thread that is zero at first. -/
  | threadZeroed
  | debugInfo
  | debugRange
  | debugLocation
  /-- A number that is assigned to no kind. -/
  | unassigned (byte : UInt8) (past : 10 < byte)
deriving DecidableEq, Repr

namespace Symbol.Kind

/-- The kinds that have a number, in the order of their numbers. -/
def assigned : List Kind :=
  [invalid, text, readOnlyData, plainData, data, zeroed, plainZeroed, threadZeroed, debugInfo,
    debugRange, debugLocation]

/-- The kind of a number. -/
def ofByte (b : UInt8) : Kind :=
  if past : 10 < b then unassigned b past else assigned.getD b.toNat invalid

/-- The number of a kind. -/
def toByte : Kind → UInt8
  | invalid => 0
  | text => 1
  | readOnlyData => 2
  | plainData => 3
  | data => 4
  | zeroed => 5
  | plainZeroed => 6
  | threadZeroed => 7
  | debugInfo => 8
  | debugRange => 9
  | debugLocation => 10
  | unassigned b _ => b

/-- The name under which a kind is shown. -/
def name : Kind → String
  | invalid => "INVALID"
  | text => "STEXT"
  | readOnlyData => "SRODATA"
  | plainData => "SNOPTRDATA"
  | data => "SDATA"
  | zeroed => "SBSS"
  | plainZeroed => "SNOPTRBSS"
  | threadZeroed => "STLSBSS"
  | debugInfo => "SDWARFINFO"
  | debugRange => "SDWARFRANGE"
  | debugLocation => "SDWARFLOC"
  | unassigned _ _ => "UNKNOWN"

/-- Symbols of this kind carry a function part. -/
def isText (k : Kind) : Bool := k = text

theorem ofByte_toByte (k : Kind) : ofByte k.toByte = k := by
  cases k with
  | unassigned b past => simp [ofByte, toByte, past]
  | _ => rfl

theorem toByte_ofByte (b : UInt8) : (ofByte b).toByte = b := by
  unfold ofByte
  split
  · rfl
  · rename_i h
    have hb : b.toNat < 11 := by
      simp only [UInt8.lt_iff_toNat_lt, UInt8.reduceToNat] at h
      omega
    have : ∀ n < 11, ((assigned.getD n invalid).toByte).toNat = n := by decide
    exact UInt8.toNat_inj.1 (this b.toNat hb)

end Symbol.Kind

/-- How a relocation patches its place: a number, for most of which there is a name.  Whether a
kind is known follows from its number; one that is called unknown although its number has a name
can be built by hand, but no file is read as one, and it is left out here. -/
structure Relocation.Kind where
  /-- The number. -/
  code : Int64
deriving DecidableEq, Repr

namespace Relocation.Kind

/-- The names of the numbers from one on. -/
def names : List String :=
  ["R_ADDR", "R_ADDRPOWER", "R_ADDRARM64", "R_ADDRMIPS", "R_ADDROFF", "R_WEAKADDROFF",
    "R_SIZE", "R_CALL", "R_CALLARM", "R_CALLARM64", "R_CALLIND", "R_CALLPOWER", "R_CALLMIPS",
    "R_CONST", "R_PCREL", "R_TLS_LE", "R_TLS_IE", "R_GOTOFF", "R_PLT0", "R_PLT1", "R_PLT2",
    "R_USEFIELD", "R_USETYPE", "R_METHODOFF", "R_POWER_TOC", "R_GOTPCREL", "R_JMPMIPS",
    "R_DWARFSECREF", "R_DWARFFILEREF", "R_ARM64_TLS_LE", "R_ARM64_TLS_IE", "R_ARM64_GOTPCREL",
    "R_POWER_TLS_LE", "R_POWER_TLS_IE", "R_POWER_TLS", "R_ADDRPOWER_DS", "R_ADDRPOWER_GOT",
    "R_ADDRPOWER_PCREL", "R_ADDRPOWER_TOCREL", "R_ADDRPOWER_TOCREL_DS", "R_PCRELDBL",
    "R_ADDRMIPSU", "R_ADDRMIPSTLS", "R_ADDRCUOFF"]

/-- The name of a number, if it has one. -/
def name? (k : Kind) : Option String :=
  if 0 < k.code then names[k.code.toInt.toNat - 1]? else none

/-- The name under which a kind of relocation is shown. -/
def name (k : Kind) : String := k.name?.getD "Unknown"

end Relocation.Kind

/-! ## Symbols -/

/-- A place to be patched. -/
structure Relocation where
  /-- Where the place begins in the block of the symbol. -/
  offset : Int64
  /-- The number of bytes to patch. -/
  size : Int64
  /-- How to patch them. -/
  kind : Relocation.Kind
  /-- A number to be added. -/
  addend : Int64
  /-- The index of the reference to patch with. -/
  target : Int64
deriving DecidableEq, Repr

/-- A variable, an argument or a result of a function. -/
structure Local where
  /-- The index of its reference. -/
  id : Int64
  /-- Its offset in the frame. -/
  offset : Int64
  /-- Whether it is a variable, an argument or a result. -/
  variableKind : Int64
  /-- The index of the reference to its type. -/
  type : Int64
deriving DecidableEq, Repr

/-- What an executable symbol carries. -/
structure Function where
  /-- The size of the arguments. -/
  args : Int64
  /-- The size of the frame. -/
  frame : Int64
  /-- Calls no function. -/
  leaf : Bool
  /-- Follows the conventions of C. -/
  cFunction : Bool
  /-- Is a method of a type. -/
  typeMethod : Bool
  /-- Is compiled for a shared object. -/
  shared : Bool
  /-- Does not split the stack. -/
  noSplit : Bool
  /-- Variables, arguments and results. -/
  locals : List Local
  /-- The table of stack maps. -/
  stackMap : Block
  /-- The table of files. -/
  fileTable : Block
  /-- The table of lines. -/
  lineTable : Block
  /-- The table of inlined calls. -/
  inlineTable : Block
  /-- Further tables. -/
  auxTables : List Block
  /-- The indices of the references to the function's data. -/
  dataIds : List Int64
  /-- The offsets into the function's data. -/
  dataOffsets : List Int64
  /-- The indices of the references to source files. -/
  fileIds : List Int64
deriving DecidableEq, Repr

/-- A symbol. -/
structure Symbol where
  /-- The index of its reference. -/
  id : Int64
  /-- Its storage class. -/
  kind : Symbol.Kind
  /-- Its size in memory. -/
  size : Int64
  /-- May be defined more than once. -/
  duplicateOk : Bool
  /-- Is not visible to other objects. -/
  isLocal : Bool
  /-- Is entered into the table of types. -/
  typeLink : Bool
  /-- The index of the reference to its type. -/
  type : Int64
  /-- Its block of the data segment. -/
  block : Block
  /-- The places to be patched. -/
  relocations : List Relocation
  /-- What it carries when it is executable. -/
  function : Option Function
deriving DecidableEq, Repr

namespace Function

/-- The blocks of a function, in the order in which the file declares them. -/
def blocks (f : Function) : List Block :=
  [f.stackMap, f.fileTable, f.lineTable, f.inlineTable] ++ f.auxTables

end Function

namespace Symbol

/-- The blocks of a symbol, in the order in which the file declares them. -/
def blocks (s : Symbol) : List Block :=
  s.block :: (s.function.map Function.blocks).getD []

end Symbol

end ObjectFile
