import ObjectFile.Symbol
/-!
# Records

What stands in an object file for a symbol and in front of the data segment.  A record
holds the sizes of the blocks that the symbol owns but not their offsets: the blocks of all
symbols lie in the data segment one behind another, in the order in which they are declared.
So a record denotes a symbol as soon as it is known where its first block begins
(`SymbolRecord.place`).

A record also holds what a symbol does not keep: the bits of its flags that mean nothing and
the tree of inlined calls.
-/

namespace ObjectFile

/-- The bit of a word of flags; a negative word has all high bits set. -/
def flagAt (word : Int64) (bit : Nat) : Bool := word.toBitVec.getLsbD bit

/-- The word that has these bits, the lowest first, and no others. -/
def flagWord : List Bool → Int64
  | [] => 0
  | bit :: bits => 2 * flagWord bits + if bit then 1 else 0

/-- The word has the bits it was made of, as far as it has room for them. -/
theorem flagAt_flagWord (bits : List Bool) {place : Nat} (h : place < 64) :
    flagAt (flagWord bits) place = bits.getD place false := by
  induction bits generalizing place with
  | nil => simp [flagAt, flagWord]
  | cons bit bits ih =>
    have hword : (flagWord (bit :: bits)).toBitVec.toNat =
        (2 * (flagWord bits).toBitVec.toNat + bit.toNat) % 2 ^ 64 := by
      cases bit <;> simp [flagWord]
    rw [flagAt, ← BitVec.testBit_toNat, hword, Nat.testBit_mod_two_pow, decide_eq_true h,
      Bool.true_and]
    cases place with
    | zero => cases bit <;> simp
    | succ place =>
      -- the lowest bit makes no difference to those above it
      have hhalf : (2 * (flagWord bits).toBitVec.toNat + bit.toNat) / 2 =
          (flagWord bits).toBitVec.toNat := by
        have := bit.toNat_le
        omega
      rw [Nat.testBit_succ, hhalf, BitVec.testBit_toNat, ← flagAt, ih (by omega),
        List.getD_cons_succ]

/-- An inlined call. -/
structure InlinedCall where
  /-- The call it is inlined into. -/
  parent : Int64
  /-- The index of the file of the call. -/
  file : Int64
  /-- The line of the call. -/
  line : Int64
  /-- The index of the reference to the function called. -/
  callee : Int64
deriving DecidableEq, Repr

/-- The function part of a record. -/
structure FunctionRecord where
  /-- The size of the arguments. -/
  args : Int64
  /-- The size of the frame. -/
  frame : Int64
  /-- What is so of the function, a bit each. -/
  flags : Int64
  /-- Not zero if the function does not split the stack. -/
  noSplit : Int64
  /-- Variables, arguments and results. -/
  locals : List Local
  /-- The size of the table of stack maps. -/
  stackMapSize : Int64
  /-- The size of the table of files. -/
  fileTableSize : Int64
  /-- The size of the table of lines. -/
  lineTableSize : Int64
  /-- The size of the table of inlined calls. -/
  inlineTableSize : Int64
  /-- The sizes of further tables. -/
  auxTableSizes : List Int64
  /-- The function's data: the index of a reference and an offset each. -/
  data : List (Int64 × Int64)
  /-- The indices of the references to source files. -/
  fileIds : List Int64
  /-- The tree of inlined calls. -/
  inlined : List InlinedCall
deriving DecidableEq, Repr, Inhabited

/-- What stands in the file for a symbol. -/
structure SymbolRecord where
  /-- The storage class. -/
  kind : Symbol.Kind
  /-- The index of the symbol's reference. -/
  id : Int64
  /-- What is so of the symbol, a bit each. -/
  flags : Int64
  /-- The size in memory. -/
  size : Int64
  /-- The index of the reference to the type. -/
  type : Int64
  /-- The size of the symbol's own block. -/
  dataSize : Int64
  /-- The places to be patched. -/
  relocations : List Relocation
  /-- The function part. -/
  function : Option FunctionRecord
  /-- Executable symbols, and no others, have a function part. -/
  textual : function.isSome = kind.isText
deriving DecidableEq, Repr

/-- How much of some things a file has in all, which is of use only to one who wants to set
memory aside. -/
structure SizingHints where
  /-- The number of relocations. -/
  relocations : Int64
  /-- The size of the tables of functions. -/
  tables : Int64
  /-- The number of variables, arguments and results. -/
  locals : Int64
  /-- The number of pieces of function data. -/
  functionData : Int64
  /-- The number of references to source files. -/
  files : Int64
deriving DecidableEq, Repr

/-- The hints in the order of the file. -/
def SizingHints.toList (h : SizingHints) : List Int64 :=
  [h.relocations, h.tables, h.locals, h.functionData, h.files]

/-- What stands in front of the bytes of the data segment. -/
structure SegmentHead where
  /-- The number of bytes. -/
  size : Nat
  /-- The hints. -/
  hints : SizingHints
deriving DecidableEq, Repr

namespace Block

@[simp] theorem consecutive_nil (start : Int64) : consecutive start [] = [] := rfl

@[simp] theorem consecutive_cons (start size : Int64) (sizes : List Int64) :
    consecutive start (size :: sizes) = ⟨size, start⟩ :: consecutive (start + size) sizes := rfl

@[simp] theorem stopAfter_nil (start : Int64) : stopAfter start [] = start := rfl

@[simp] theorem stopAfter_cons (start size : Int64) (sizes : List Int64) :
    stopAfter start (size :: sizes) = stopAfter (start + size) sizes := rfl

theorem stopAfter_append (start : Int64) (sizes more : List Int64) :
    stopAfter start (sizes ++ more) = stopAfter (stopAfter start sizes) more := by
  simp [stopAfter]

theorem consecutive_append (start : Int64) (sizes more : List Int64) :
    consecutive start (sizes ++ more) =
      consecutive start sizes ++ consecutive (stopAfter start sizes) more := by
  induction sizes generalizing start with
  | nil => rfl
  | cons size sizes ih => simp [ih]

@[simp] theorem map_size_consecutive (start : Int64) (sizes : List Int64) :
    (consecutive start sizes).map Block.size = sizes := by
  induction sizes generalizing start with
  | nil => rfl
  | cons size sizes ih => simp [ih]

end Block

namespace FunctionRecord

/-- The sizes of the function's blocks, in the order in which they are declared. -/
def sizes (f : FunctionRecord) : List Int64 :=
  [f.stackMapSize, f.fileTableSize, f.lineTableSize, f.inlineTableSize] ++ f.auxTableSizes

/-- The function of a record whose first block begins at `start`. -/
def place (f : FunctionRecord) (start : Int64) : Function :=
  let stackMap : Block := ⟨f.stackMapSize, start⟩
  let fileTable : Block := ⟨f.fileTableSize, stackMap.stop⟩
  let lineTable : Block := ⟨f.lineTableSize, fileTable.stop⟩
  let inlineTable : Block := ⟨f.inlineTableSize, lineTable.stop⟩
  { args := f.args
    frame := f.frame
    leaf := flagAt f.flags 0
    cFunction := flagAt f.flags 1
    typeMethod := flagAt f.flags 2
    shared := flagAt f.flags 3
    noSplit := f.noSplit != 0
    locals := f.locals
    stackMap, fileTable, lineTable, inlineTable
    auxTables := Block.consecutive inlineTable.stop f.auxTableSizes
    dataIds := f.data.map Prod.fst
    dataOffsets := f.data.map Prod.snd
    fileIds := f.fileIds }

theorem blocks_place (f : FunctionRecord) (start : Int64) :
    (f.place start).blocks = Block.consecutive start f.sizes := rfl

end FunctionRecord

namespace SymbolRecord

/-- The sizes of the symbol's blocks, in the order in which they are declared. -/
def sizes (r : SymbolRecord) : List Int64 :=
  r.dataSize :: (r.function.map FunctionRecord.sizes).getD []

/-- The symbol of a record whose first block begins at `start`. -/
def place (r : SymbolRecord) (start : Int64) : Symbol where
  id := r.id
  kind := r.kind
  size := r.size
  duplicateOk := flagAt r.flags 0
  isLocal := flagAt r.flags 1
  typeLink := flagAt r.flags 2
  type := r.type
  block := ⟨r.dataSize, start⟩
  relocations := r.relocations
  function := r.function.map (·.place (start + r.dataSize))

/-- The offset behind the last block of the symbol. -/
def stop (r : SymbolRecord) (start : Int64) : Int64 := Block.stopAfter start r.sizes

theorem blocks_place (r : SymbolRecord) (start : Int64) :
    (r.place start).blocks = Block.consecutive start r.sizes := by
  cases h : r.function with
  | none => simp [Symbol.blocks, place, sizes, h]
  | some f => simp [Symbol.blocks, place, sizes, h, f.blocks_place]

/-- The symbols of records of which the first block of all begins at `start`. -/
def placeAll (start : Int64) : List SymbolRecord → List Symbol
  | [] => []
  | r :: rs => r.place start :: placeAll (r.stop start) rs

/-- The offset behind the last block of all. -/
def stopAll (start : Int64) (rs : List SymbolRecord) : Int64 := rs.foldl (fun s r => r.stop s) start

theorem stopAll_eq (start : Int64) (rs : List SymbolRecord) :
    stopAll start rs = Block.stopAfter start (rs.flatMap sizes) := by
  induction rs generalizing start with
  | nil => rfl
  | cons r rs ih =>
    rw [List.flatMap_cons, Block.stopAfter_append, ← stop, ← ih]
    rfl

/-- The blocks of all symbols, in the order in which they are declared, are consecutive. -/
theorem flatMap_blocks_placeAll (start : Int64) (rs : List SymbolRecord) :
    (placeAll start rs).flatMap Symbol.blocks =
      Block.consecutive start (rs.flatMap sizes) := by
  induction rs generalizing start with
  | nil => rfl
  | cons r rs ih =>
    rw [placeAll, List.flatMap_cons, ih, blocks_place, List.flatMap_cons,
      Block.consecutive_append, stop]

theorem placeAll_append (start : Int64) (rs more : List SymbolRecord) :
    placeAll start (rs ++ more) = placeAll start rs ++ placeAll (stopAll start rs) more := by
  induction rs generalizing start with
  | nil => rfl
  | cons r rs ih => simp [placeAll, ih, stopAll]

end SymbolRecord

end ObjectFile
