import ObjectFile.Container
/-!
# The canonical file of an object

Of all files that are about an object, the one without anything that reading does not
notice: no noise, no dependencies, no hints, no bits without a meaning, no inlined calls and
nothing after the footer.  An object has such a file if its first reference is the empty one
and its blocks are consecutive from zero on, as is so of every object that was read.
-/

namespace ObjectFile

/-- The function part of the record of a symbol. -/
def Function.record (f : Function) : FunctionRecord where
  args := f.args
  frame := f.frame
  flags := flagWord [f.leaf, f.cFunction, f.typeMethod, f.shared]
  noSplit := flagWord [f.noSplit]
  locals := f.locals
  stackMapSize := f.stackMap.size
  fileTableSize := f.fileTable.size
  lineTableSize := f.lineTable.size
  inlineTableSize := f.inlineTable.size
  auxTableSizes := f.auxTables.map Block.size
  data := f.dataIds.zip f.dataOffsets
  fileIds := f.fileIds
  inlined := []

/-- The record of a symbol.  A symbol that ought to have a function part and has none gets
one of zeros. -/
def Symbol.record (s : Symbol) : SymbolRecord where
  kind := s.kind
  id := s.id
  flags := flagWord [s.duplicateOk, s.isLocal, s.typeLink]
  size := s.size
  type := s.type
  dataSize := s.block.size
  relocations := s.relocations
  function :=
    if s.kind.isText then some ((s.function.map Function.record).getD default) else none
  textual := by cases s.kind.isText <;> rfl

/-- The canonical file of an object. -/
def Object.container (o : Object) : Container where
  noise := []
  dependencies := []
  references := o.references.toList.drop 1
  hints := ⟨0, 0, 0, 0, 0⟩
  data := o.data
  symbols := o.symbols.map Symbol.record
  trailing := []

end ObjectFile
