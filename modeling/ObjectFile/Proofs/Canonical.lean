import ObjectFile.Container.Canonical
import ObjectFile.Proofs.Findings
import ObjectFile.Proofs.Writing
/-!
# The canonical file of what was read

An object that was read can be written in the canonical form, and what is written is read as
the same object (`Object.ofBytes_container_write`).  So nothing that an object holds depends on
anything that its canonical file leaves out: noise, names of dependencies, hints, longer forms of
numbers, bits without a meaning, inlined calls and bytes that are no text.

Three facts carry this.

* The canonical container of an object describes it, if a container does
  (`Container.Describes.container`).  Bits are read back from the word that is made of them, and
  the offsets of the blocks follow from the sizes, which are kept.
* The lists of a record that was read are counted by numbers of 64 bits, so these can be written
  again (`Grammar.SymbolRecord.fits`).
* A text is read back from its own bytes, even if those it was first read from were others.
-/

namespace ObjectFile

open Grammar (Sequence InOrder Counted)

/-! ## What the canonical container describes -/

namespace Function

theorem hasBit_record (f : Function) {place : Nat} (h : place < 64) :
    [f.leaf, f.cFunction, f.typeMethod, f.shared].getD place false = true ↔
      Grammar.HasBit f.record.flags place := by
  rw [← flagAt_iff _ h, record, flagAt_flagWord _ h]

/-- The function part that is made of a function describes it. -/
theorem describes_record {f : Function} (h : f.dataIds.length = f.dataOffsets.length) :
    f.record.Describes f where
  args := rfl
  frame := rfl
  leaf := f.hasBit_record (by decide : 0 < 64)
  cFunction := f.hasBit_record (by decide : 1 < 64)
  typeMethod := f.hasBit_record (by decide : 2 < 64)
  shared := f.hasBit_record (by decide : 3 < 64)
  noSplit := by
    have hword : ∀ bit : Bool, bit = true ↔ flagWord [bit] ≠ 0 := by decide
    exact hword f.noSplit
  locals := rfl
  stackMap := rfl
  fileTable := rfl
  lineTable := rfl
  inlineTable := rfl
  auxTables := rfl
  dataIds := (List.map_fst_zip (Nat.le_of_eq h)).symm
  dataOffsets := (List.map_snd_zip (Nat.le_of_eq h.symm)).symm
  fileIds := rfl

end Function

theorem Symbol.hasBit_record (s : Symbol) {place : Nat} (h : place < 64) :
    [s.duplicateOk, s.isLocal, s.typeLink].getD place false = true ↔
      Grammar.HasBit s.record.flags place := by
  rw [← flagAt_iff _ h, record, flagAt_flagWord _ h]

namespace Symbol.Regular

variable {s : Symbol}

/-- Executable symbols, and no others, get a function part, and it is that of their function. -/
theorem function_record (h : s.Regular) :
    s.record.function = s.function.map Function.record := by
  have htext : s.kind.isText = s.function.isSome := by
    rw [Bool.eq_iff_iff, h.textual, Kind.isText, decide_eq_true_iff]
  show (if s.kind.isText then some ((s.function.map Function.record).getD default) else none) = _
  rw [htext]
  cases s.function <;> rfl

/-- The record that is made of a symbol describes it. -/
theorem describes_record (h : s.Regular) : s.record.Describes s where
  id := rfl
  kind := rfl
  size := rfl
  duplicateOk := s.hasBit_record (by decide : 0 < 64)
  isLocal := s.hasBit_record (by decide : 1 < 64)
  typeLink := s.hasBit_record (by decide : 2 < 64)
  type := rfl
  block := rfl
  relocations := rfl
  function := by
    rw [h.function_record]
    cases hf : s.function with
    | none => exact .none
    | some f => exact .some (Function.describes_record (h.paired f hf))

end Symbol.Regular

namespace Container

variable {c : Container} {o : Object}

theorem Describes.regular (h : c.Describes o) : ∀ s ∈ o.symbols, s.Regular := by
  intro s hs
  rw [describes_iff.1 h] at hs
  exact SymbolRecord.regular_of_mem_placeAll hs

theorem Describes.references_container (h : c.Describes o) :
    o.container.references = c.references := by
  rw [Object.container, h.references]
  rfl

/-- What a container describes, its canonical container describes too. -/
theorem Describes.container (h : c.Describes o) : o.container.Describes o where
  references := by rw [h.references_container, h.references]
  data := rfl
  symbols := by
    have hrecords : ∀ s ∈ o.symbols, s.record.Describes s := fun s hs =>
      (h.regular s hs).describes_record
    exact List.forall₂_map_left_iff.2 (List.forall₂_same.2 hrecords)
  placed := h.placed

/-- There is nothing in a canonical container that could get in the way of reading. -/
theorem wellFormed_container (o : Object) : o.container.WellFormed :=
  ⟨by simp [Object.container, Envelope.opening], by simp [Object.container]⟩

end Container

/-! ## What was read can be counted -/

namespace Grammar

variable {α : Type} {item : List UInt8 → α → Prop} {w : List UInt8} {as : List α}

theorem toNat_toInt_lt (n : Int64) : n.toInt.toNat < 2 ^ 63 := by
  have := n.toInt_lt
  omega

theorem Counted.length_lt (h : Counted item w as) : as.length < 2 ^ 63 := by
  obtain ⟨count, hcount, -⟩ := h
  rw [hcount]
  exact toNat_toInt_lt count

/-- Each part has a word in the whole. -/
theorem InOrder.exists_word {parts : List (List UInt8 → Prop)} (h : InOrder parts w)
    (part : List UInt8 → Prop) (hpart : part ∈ parts) : ∃ v, part v := by
  induction parts generalizing w with
  | nil => cases hpart
  | cons first parts ih =>
    obtain ⟨u, v, -, hu, hv⟩ := h
    obtain rfl | hpart := List.mem_cons.1 hpart
    · exact ⟨u, hu⟩
    · exact ih hv hpart

theorem Sequence.exists_word (h : Sequence item w as) {a : α} (ha : a ∈ as) :
    ∃ v, item v a := by
  induction h with
  | nil => cases ha
  | cons head _ ih =>
    obtain rfl | ha := List.mem_cons.1 ha
    · exact ⟨_, head⟩
    · exact ih ha

theorem Table.exists_word {record : List UInt8 → α → Prop} (h : Table record w as) {a : α}
    (ha : a ∈ as) : ∃ v, record v a := by
  obtain ⟨_, _, -, hrecords, -⟩ := h
  obtain ⟨_, hitem⟩ := hrecords.exists_word ha
  exact InOrder.exists_word hitem (record · a) (by simp)

theorem FunctionRecord.fits {f : ObjectFile.FunctionRecord} (h : FunctionRecord w f) :
    f.Fits := by
  obtain ⟨_, hlocals⟩ := InOrder.exists_word h (Counted Local · f.locals) (by simp)
  obtain ⟨_, haux⟩ := InOrder.exists_word h (Counted Number · f.auxTableSizes) (by simp)
  obtain ⟨_, count, hdata, -⟩ := InOrder.exists_word h (FunctionData · f.data) (by simp)
  obtain ⟨_, hfiles⟩ := InOrder.exists_word h (Counted Number · f.fileIds) (by simp)
  obtain ⟨_, hinlined⟩ := InOrder.exists_word h (Counted InlinedCall · f.inlined) (by simp)
  exact ⟨hlocals.length_lt, haux.length_lt, hdata ▸ toNat_toInt_lt count, hfiles.length_lt,
    hinlined.length_lt⟩

theorem SymbolRecord.fits {r : ObjectFile.SymbolRecord} (h : SymbolRecord w r) : r.Fits := by
  obtain ⟨_, hrelocations⟩ :=
    InOrder.exists_word h.2 (Counted Relocation · r.relocations) (by simp)
  obtain ⟨_, hfunction⟩ := InOrder.exists_word h.2 (FunctionPart · r.function) (by simp)
  refine ⟨hrelocations.length_lt, fun f hf => ?_⟩
  rw [Option.mem_def.1 hf] at hfunction
  exact FunctionRecord.fits hfunction

end Grammar

/-! ## What was read can be written -/

theorem FunctionRecord.Describes.fits_record {r : FunctionRecord} {f : Function}
    (h : r.Describes f) (hr : r.Fits) : f.record.Fits where
  locals := by
    rw [Function.record, h.locals]
    exact hr.locals
  auxTableSizes := by
    rw [Function.record, h.auxTables]
    exact hr.auxTableSizes
  data := by
    have hids : f.dataIds.length < 2 ^ 63 := by
      rw [h.dataIds, List.length_map]
      exact hr.data
    rw [Function.record, List.length_zip]
    omega
  fileIds := by
    rw [Function.record, h.fileIds]
    exact hr.fileIds
  inlined := by simp [Function.record]

theorem SymbolRecord.Describes.fits_record {r : SymbolRecord} {s : Symbol} (h : r.Describes s)
    (hs : s.Regular) (hr : r.Fits) : s.record.Fits where
  relocations := by
    rw [Symbol.record, h.relocations]
    exact hr.relocations
  function := by
    intro g hg
    rw [hs.function_record] at hg
    obtain ⟨f, hf, rfl⟩ := Option.map_eq_some_iff.1 hg
    -- the function of the symbol is described by that of the record
    have hrel := h.function
    rw [hf] at hrel
    cases hrf : r.function with
    | none => rw [hrf] at hrel; cases hrel
    | some f' =>
      rw [hrf, Option.rel_some_some] at hrel
      exact hrel.fits_record (hr.function f' hrf)

/-- An object that was read fits into its canonical container, if its names are not too long. -/
theorem Container.Describes.fits_container {c : Container} {o : Object} {w : List UInt8}
    (h : c.Describes o) (hw : Grammar.File w c)
    (hnames : ∀ r ∈ o.references, (Utf8.encode r.name).length < 2 ^ 63) : o.container.Fits := by
  obtain ⟨_, hhead⟩ := Grammar.InOrder.exists_word hw.2
    (Grammar.SegmentHead · ⟨c.data.length, c.hints⟩) (by simp)
  obtain ⟨_, hsymbols⟩ := Grammar.InOrder.exists_word hw.2
    (Grammar.Table Grammar.SymbolRecord · c.symbols) (by simp)
  refine ⟨fun r hr => hnames r ?_, ?_, fun r hr => ?_⟩
  · exact Array.mem_toList_iff.1 (List.mem_of_mem_drop hr)
  · obtain ⟨_, hsize⟩ := Grammar.InOrder.exists_word hhead (Grammar.Length · c.data.length)
      (by simp)
    rw [Object.container, h.data]
    exact hsize.lt
  · obtain ⟨s, hs, rfl⟩ := List.mem_map.1 hr
    obtain ⟨k, hk, rfl⟩ := List.getElem_of_mem hs
    have hlength := h.symbols.length_eq
    have hr : c.symbols[k].Describes o.symbols[k] := h.symbols.get (by omega) hk
    obtain ⟨v, hv⟩ := hsymbols.exists_word (List.getElem_mem (by omega : k < c.symbols.length))
    exact hr.fits_record (h.regular _ hs) hv.fits

namespace Object

/-- The canonical form of bytes that are read as an object. -/
def canonical (s : List UInt8) : Except Fault (List UInt8) :=
  (ofBytes s).1.map fun o => o.container.write

/-- An object that was read is read again from its canonical file, which is taken to its end: all
its references, its data and its symbols are the same, the offsets of their blocks included.
So the canonical form of bytes is its own canonical form.

The bound on names is that on all texts in memory.  It is needed, as a name may become longer
when it is read: a byte that is no text is replaced by three. -/
theorem ofBytes_container_write {s : List UInt8} {o : Object} {n : Nat}
    (h : ofBytes s = (.ok o, n))
    (hnames : ∀ r ∈ o.references, (Utf8.encode r.name).length < 2 ^ 63) :
    ofBytes o.container.write = (.ok o, o.container.write.length) ∧
      ∃ w, canonical s = .ok w ∧ canonical w = .ok w := by
  obtain ⟨-, c, hfile, hdescribes⟩ := ofBytes_eq_ok_iff.1 h
  have hwrite : o.container.write = o.container.word := by
    rw [Container.write_eq]
    exact List.append_nil _
  have hword : Grammar.File o.container.word o.container :=
    Container.file_word_of_fits (Container.wellFormed_container o)
      (hdescribes.fits_container hfile hnames)
  have hagain : ofBytes o.container.write = (.ok o, o.container.write.length) := by
    rw [ofBytes_eq_ok_iff, List.take_length, hwrite]
    exact ⟨Nat.le_refl _, o.container, hword, hdescribes.container⟩
  refine ⟨hagain, o.container.write, ?_, ?_⟩
  · rw [canonical, h]
    rfl
  · rw [canonical, hagain]
    rfl

/-- A file with everything that the canonical one leaves out: noise, dependencies, hints, a long
form of a length and of a reference, a name that is no text, a flag word with all bits set, a
function with a bit that means nothing, no locals by a negative number and an inlined call, and a
byte behind the end.  Kinds and codes without a name, and a negative size, are kept. -/
theorem ofBytes_container_write_ragged :
    let s : List UInt8 := [0x00, 0x67] ++ Envelope.opening ++ [1, 0x66, 0x6D, 0x74, 0] ++
      [0xFE, 0x84, 0x00, 0xFF, 0x61, 0x03, 0xFF] ++
      [0x04, 0x02, 0, 0, 0, 0x01, 0xC3, 0x90] ++
      [0xFE, 0xC8, 0x02, 0x01, 0x04, 0x00, 0x02, 0x02, 0x00, 0x08, 0xC6, 0x01, 0x00, 0x02] ++
      [0xFE, 0x01, 0x04, 0x00, 0x80, 0x80, 0x00, 0x01, 0x02, 0x01,
        0x00, 0x00, 0x22, 0x0A, 0x01, 0x02, 0x00, 0x00, 0x00, 0x02, 0x05,
        0x02, 0x02, 0x80, 0x01, 0x01, 0x02, 0x01, 0x02, 0x0E, 0x02, 0xFF] ++
      Envelope.closing ++ [7]
    let o : Object :=
      { references := #[⟨"", 0⟩, ⟨"\uFFFDa", -2⟩]
        data := [0xC3, 0x90]
        symbols :=
          [{ id := 1, kind := .unassigned 200 (by decide), size := 2, duplicateOk := true
             isLocal := true, typeLink := true, type := 0, block := ⟨1, 0⟩
             relocations := [⟨0, 4, ⟨99⟩, 0, 1⟩], function := none },
           { id := 2, kind := .text, size := 0, duplicateOk := false, isLocal := false
             typeLink := false, type := -1, block := ⟨1, 1⟩, relocations := []
             function := some
              { args := 0, frame := 0, leaf := true, cFunction := false, typeMethod := false
                shared := false, noSplit := true, locals := [], stackMap := ⟨1, 2⟩
                fileTable := ⟨0, 3⟩, lineTable := ⟨0, 3⟩, inlineTable := ⟨0, 3⟩
                auxTables := [⟨-3, 3⟩], dataIds := [1], dataOffsets := [64], fileIds := [] } }] }
    ofBytes s = (.ok o, 83) ∧ o.container.write.length = 73 ∧
      ofBytes o.container.write = (.ok o, o.container.write.length) ∧
      ∃ w, canonical s = .ok w ∧ canonical w = .ok w := by
  intro s o
  have h : ofBytes s = (.ok o, 83) := by decide +kernel
  exact ⟨h, by decide +kernel, ofBytes_container_write h (by decide +kernel)⟩

end Object

end ObjectFile
