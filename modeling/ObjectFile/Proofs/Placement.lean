import ObjectFile.Proofs.Grammar
/-!
# The object of a container

What a container says about an object (`Container.Describes`) leaves no choice: the sizes of
all blocks stand in the records, and as the blocks lie one behind another their offsets
follow.  So the object that is described is the one that comes of placing the records
(`Container.describes_iff`).
-/

namespace ObjectFile

/-! ## Flags -/

theorem flagAt_iff (word : Int64) {place : Nat} (h : place < 64) :
    flagAt word place = true ↔ Grammar.HasBit word place := by
  have hbit : flagAt word place = true ↔ (word.toBitVec.toNat : Int) / 2 ^ place % 2 = 1 := by
    rw [flagAt, ← BitVec.testBit_toNat, Nat.testBit_eq_decide_div_mod_eq, decide_eq_true_iff]
    norm_cast
  have hvalue : word.toInt = word.toBitVec.toInt := rfl
  rw [hbit, Grammar.HasBit, hvalue, BitVec.toInt_eq_toNat_cond]
  split
  · rfl
  · -- the value is less by 2 ^ 64, so the quotient is less by an even number
    have hpower : (2 ^ 64 : Int) = 2 ^ place * (2 * 2 ^ (63 - place)) := by
      rw [← Int.pow_succ', ← Int.pow_add]
      congr 1
      omega
    have hquotient : ((word.toBitVec.toNat : Int) - (2 ^ 64 : Nat)) / 2 ^ place =
        (word.toBitVec.toNat : Int) / 2 ^ place - 2 * 2 ^ (63 - place) := by
      have hcast : ((2 ^ 64 : Nat) : Int) = 2 ^ 64 := rfl
      rw [hcast, hpower, Int.sub_mul_ediv_left _ _ (Int.pow_ne_zero (by decide))]
    rw [hquotient, Int.sub_mul_emod_self_left]

/-! ## Blocks -/

namespace Block

/-- Blocks are consecutive if each begins where the sizes of those before it have brought
the offset. -/
theorem eq_consecutive_iff {start : Int64} {blocks : List Block} :
    blocks = consecutive start (blocks.map Block.size) ↔
      ∀ (k : Nat) (h : k < blocks.length),
        blocks[k].offset = start + ((blocks.take k).map Block.size).sum := by
  induction blocks generalizing start with
  | nil => simp
  | cons b blocks ih =>
    rw [List.map_cons, consecutive_cons, List.cons.injEq, ih]
    constructor
    · rintro ⟨hb, htail⟩ k hk
      cases k with
      | zero =>
        rw [List.getElem_cons_zero, hb]
        simp
      | succ k =>
        rw [List.getElem_cons_succ, htail k (by simpa using hk)]
        simp [Int64.add_assoc]
    · intro h
      refine ⟨?_, fun k hk => ?_⟩
      · have hzero := h 0 (by simp)
        rw [List.getElem_cons_zero] at hzero
        cases b
        simpa using hzero
      · have hsucc := h (k + 1) (by simpa using hk)
        rw [List.getElem_cons_succ] at hsucc
        simpa [Int64.add_assoc] using hsucc

theorem placed_iff {blocks : List Block} :
    Placed blocks ↔ blocks = consecutive 0 (blocks.map Block.size) := by
  rw [eq_consecutive_iff, Placed]
  simp

end Block

/-! ## Records -/

namespace FunctionRecord

theorem describes_place (r : FunctionRecord) (start : Int64) : r.Describes (r.place start) where
  args := rfl
  frame := rfl
  leaf := flagAt_iff _ (by decide)
  cFunction := flagAt_iff _ (by decide)
  typeMethod := flagAt_iff _ (by decide)
  shared := flagAt_iff _ (by decide)
  noSplit := by simp [place]
  locals := rfl
  stackMap := rfl
  fileTable := rfl
  lineTable := rfl
  inlineTable := rfl
  auxTables := Block.map_size_consecutive _ _
  dataIds := rfl
  dataOffsets := rfl
  fileIds := rfl

variable {r : FunctionRecord} {f : Function}

theorem Describes.map_size_blocks (h : r.Describes f) : f.blocks.map Block.size = r.sizes := by
  simp [Function.blocks, sizes, h.stackMap, h.fileTable, h.lineTable, h.inlineTable,
    h.auxTables]

/-- What is described is known as soon as it is known where the first block begins. -/
theorem Describes.eq_place {start : Int64} (h : r.Describes f)
    (hblocks : f.blocks = Block.consecutive start r.sizes) : f = r.place start := by
  rw [← r.blocks_place] at hblocks
  obtain ⟨hstack, hfile, hline, hinline, haux⟩ :
      f.stackMap = (r.place start).stackMap ∧ f.fileTable = (r.place start).fileTable ∧
        f.lineTable = (r.place start).lineTable ∧ f.inlineTable = (r.place start).inlineTable ∧
        f.auxTables = (r.place start).auxTables := by
    simpa [Function.blocks] using hblocks
  have hplace := r.describes_place start
  have hleaf := Bool.eq_iff_iff.2 (h.leaf.trans hplace.leaf.symm)
  have hcFunction := Bool.eq_iff_iff.2 (h.cFunction.trans hplace.cFunction.symm)
  have htypeMethod := Bool.eq_iff_iff.2 (h.typeMethod.trans hplace.typeMethod.symm)
  have hshared := Bool.eq_iff_iff.2 (h.shared.trans hplace.shared.symm)
  have hsplit := Bool.eq_iff_iff.2 (h.noSplit.trans hplace.noSplit.symm)
  cases f
  rw [place, Function.mk.injEq]
  exact ⟨h.args, h.frame, hleaf, hcFunction, htypeMethod, hshared, hsplit, h.locals, hstack,
    hfile, hline, hinline, haux, h.dataIds, h.dataOffsets, h.fileIds⟩

end FunctionRecord

namespace SymbolRecord

theorem describes_place (r : SymbolRecord) (start : Int64) : r.Describes (r.place start) where
  id := rfl
  kind := rfl
  size := rfl
  duplicateOk := flagAt_iff _ (by decide)
  isLocal := flagAt_iff _ (by decide)
  typeLink := flagAt_iff _ (by decide)
  type := rfl
  block := rfl
  relocations := rfl
  function := by
    rw [place]
    cases r.function with
    | none => exact .none
    | some f => exact .some (f.describes_place _)

variable {r : SymbolRecord} {s : Symbol}

theorem Describes.map_size_blocks (h : r.Describes s) : s.blocks.map Block.size = r.sizes := by
  have hfunction := h.function
  rw [Symbol.blocks, sizes, List.map_cons, h.block]
  congr 1
  generalize r.function = rf, s.function = sf at hfunction
  cases hfunction with
  | none => rfl
  | some hf => exact hf.map_size_blocks

/-- What is described is known as soon as it is known where the first block begins. -/
theorem Describes.eq_place {start : Int64} (h : r.Describes s)
    (hblocks : s.blocks = Block.consecutive start r.sizes) : s = r.place start := by
  obtain ⟨hblock, hrest⟩ : s.block = ⟨r.dataSize, start⟩ ∧
      (s.function.map Function.blocks).getD [] =
        Block.consecutive (start + r.dataSize) ((r.function.map FunctionRecord.sizes).getD []) := by
    simpa [Symbol.blocks, sizes] using hblocks
  have hfunction : s.function = r.function.map (·.place (start + r.dataSize)) := by
    have hrel := h.function
    generalize r.function = rf, s.function = sf at hrel hrest
    cases hrel with
    | none => rfl
    | some hf => exact congrArg some (hf.eq_place hrest)
  have hplace := r.describes_place start
  have hduplicateOk := Bool.eq_iff_iff.2 (h.duplicateOk.trans hplace.duplicateOk.symm)
  have hisLocal := Bool.eq_iff_iff.2 (h.isLocal.trans hplace.isLocal.symm)
  have htypeLink := Bool.eq_iff_iff.2 (h.typeLink.trans hplace.typeLink.symm)
  cases s
  rw [place, Symbol.mk.injEq]
  exact ⟨h.id, h.kind, h.size, hduplicateOk, hisLocal, htypeLink, h.type, hblock,
    h.relocations, hfunction⟩

theorem describes_placeAll (start : Int64) (rs : List SymbolRecord) :
    List.Forall₂ Describes rs (placeAll start rs) := by
  induction rs generalizing start with
  | nil => exact .nil
  | cons r rs ih => exact .cons (r.describes_place start) (ih _)

/-- Symbols are the ones of given records if these describe them and all blocks are
consecutive. -/
theorem eq_placeAll {start : Int64} {rs : List SymbolRecord} {symbols : List Symbol}
    (h : List.Forall₂ Describes rs symbols)
    (hblocks : symbols.flatMap Symbol.blocks = Block.consecutive start (rs.flatMap sizes)) :
    symbols = placeAll start rs := by
  induction h generalizing start with
  | nil => rfl
  | @cons r s rs symbols hr _ ih =>
    -- both lists of blocks are cut behind the blocks of the first symbol
    rw [List.flatMap_cons, List.flatMap_cons, Block.consecutive_append] at hblocks
    have hsizes : s.blocks.map Block.size = (Block.consecutive start r.sizes).map Block.size := by
      rw [hr.map_size_blocks, Block.map_size_consecutive]
    have hlength : s.blocks.length = (Block.consecutive start r.sizes).length := by
      rw [← List.length_map Block.size, hsizes, List.length_map]
    obtain ⟨hhead, htail⟩ := List.append_inj hblocks hlength
    rw [hr.eq_place hhead, ih htail]
    rfl

theorem map_size_flatMap_blocks {rs : List SymbolRecord} {symbols : List Symbol}
    (h : List.Forall₂ Describes rs symbols) :
    (symbols.flatMap Symbol.blocks).map Block.size = rs.flatMap sizes := by
  induction h with
  | nil => rfl
  | cons hr _ ih => rw [List.flatMap_cons, List.flatMap_cons, List.map_append, ih,
      hr.map_size_blocks]

end SymbolRecord

namespace Container

/-- A container describes one object, the one that comes of placing its records. -/
theorem describes_iff {c : Container} {o : Object} : c.Describes o ↔ o = c.object := by
  constructor
  · intro h
    have hblocks := Block.placed_iff.1 h.placed
    rw [SymbolRecord.map_size_flatMap_blocks h.symbols] at hblocks
    have hsymbols := SymbolRecord.eq_placeAll h.symbols hblocks
    have hreferences := h.references
    have hdata := h.data
    obtain ⟨⟨references⟩, symbols, data⟩ := o
    rw [object, ← hsymbols, ← hreferences, ← hdata]
  · rintro rfl
    have hdescribes := SymbolRecord.describes_placeAll 0 c.symbols
    refine ⟨rfl, rfl, hdescribes, ?_⟩
    rw [Block.placed_iff, object, SymbolRecord.map_size_flatMap_blocks hdescribes]
    exact SymbolRecord.flatMap_blocks_placeAll 0 c.symbols

end Container

end ObjectFile
