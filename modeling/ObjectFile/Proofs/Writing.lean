import ObjectFile.Proofs.Envelope
import ObjectFile.Proofs.Record
/-!
# What is written

Writing gives words: what is written for a number, a text, a record or a file is a word that
denotes it.  This is so as long as the lengths that are written are those of 63 bits, as are the
lengths of all texts and lists in memory (`Container.Fits`); of what has fewer than `2 ^ 63` bytes
when it is written they are (`Container.fits_of_length_lt`).
-/

namespace ObjectFile

open Grammar

variable {α : Type}

/-! ## Numbers -/

namespace Varint

theorem toNat_shiftRight_seven (word : UInt64) : (word >>> 7).toNat = word.toNat / 128 := by
  rw [UInt64.toNat_shiftRight, Nat.shiftRight_eq_div_pow]
  rfl

/-- The high bit does not belong to the group. -/
theorem toNat_or_high_mod (b : UInt8) : (b ||| 0x80).toNat % 128 = b.toNat % 128 := by
  have hmod : (b.toNat ||| 128) % 2 ^ 7 = b.toNat % 2 ^ 7 ||| 128 % 2 ^ 7 := Nat.or_mod_two_pow
  rw [UInt8.toNat_or]
  simpa using hmod

theorem high_le_or (b : UInt8) : 0x80 ≤ b ||| 0x80 := by
  rw [UInt8.le_iff_toNat_le, UInt8.toNat_or]
  exact Nat.right_le_or

/-- The groups of a word denote it. -/
theorem base128_encodeWord (word : UInt64) : base128 (encodeWord word) = word.toNat := by
  fun_induction encodeWord word with
  | case1 word h =>
    rw [UInt64.lt_iff_toNat_lt] at h
    have hlt : word.toNat < 128 := h
    simp only [base128, UInt64.toNat_toUInt8]
    omega
  | case2 word h ih =>
    rw [base128, ih, toNat_or_high_mod, UInt64.toNat_toUInt8, toNat_shiftRight_seven]
    omega

theorem toUInt8_lt_high {word : UInt64} (h : word < 0x80) : word.toUInt8 < 0x80 := by
  rw [UInt8.lt_iff_toNat_lt, UInt64.toNat_toUInt8]
  exact Nat.lt_of_le_of_lt (Nat.mod_le _ _) (UInt64.lt_iff_toNat_lt.1 h)

/-- A word of few bits has few groups. -/
theorem groups_encodeWord {word : UInt64} {most : Nat} (h : word.toNat < 128 ^ (most + 1)) :
    Groups (most + 1) (encodeWord word) := by
  induction most generalizing word with
  | zero =>
    have hsmall : word < 0x80 := UInt64.lt_iff_toNat_lt.2 h
    rw [encodeWord, if_pos hsmall]
    exact groups_cons.2 (.inl ⟨toUInt8_lt_high hsmall, rfl⟩)
  | succ most ih =>
    -- a group is split off unless the word is small
    rw [encodeWord]
    split
    case isTrue hsmall => exact groups_cons.2 (.inl ⟨toUInt8_lt_high hsmall, rfl⟩)
    case isFalse hlarge =>
      refine groups_cons.2 (.inr ⟨high_le_or _, ih ?_⟩)
      rw [toNat_shiftRight_seven, Nat.div_lt_iff_lt_mul (by decide)]
      exact h

theorem encodeWord_ne_nil (word : UInt64) : encodeWord word ≠ [] := by
  rw [encodeWord]
  split <;> exact List.cons_ne_nil _ _

/-- No more groups are written than there have to be. -/
theorem length_encodeWord_le {word : UInt64} {most : Nat} (hmost : 0 < most)
    (h : word.toNat < 128 ^ most) : (encodeWord word).length ≤ most := by
  obtain ⟨more, rfl⟩ : ∃ more, most = more + 1 := Nat.exists_eq_succ_of_ne_zero (Nat.ne_of_gt hmost)
  exact length_le_of_groups (groups_encodeWord h)

end Varint

namespace Grammar

theorem number_encode (n : Int64) : Number (Varint.encode n) n := by
  have hsize : (Zigzag.encode n).toNat < 128 ^ (9 + 1) :=
    Nat.lt_trans (Zigzag.encode n).toNat_lt (by decide)
  refine ⟨Varint.groups_encodeWord hsize, ?_⟩
  rw [Varint.encode, Varint.base128_encodeWord, Nat.mod_eq_of_lt (Zigzag.encode n).toNat_lt,
    Zigzag.zigzag_toNat_encode]

theorem encode_ne_nil (n : Int64) : Varint.encode n ≠ [] :=
  Varint.encodeWord_ne_nil (Zigzag.encode n)

theorem length_encode {size : Nat} (h : size < 2 ^ 63) :
    Grammar.Length (Varint.encode (Int64.ofNat size)) size :=
  ⟨Int64.ofNat size, Int64.toInt_ofNat_of_lt h, number_encode _⟩

theorem text_encodeText {t : String} (h : (Utf8.encode t).length < 2 ^ 63) :
    Text (Varint.encodeText t) t :=
  ⟨Utf8.encode t, (Utf8.decode_encode t).symm,
    inOrder_cons (length_encode h) (inOrder_last rfl)⟩

/-! ## Lists -/

/-- Items that are written one behind another. -/
theorem sequence_flatMap {item : List UInt8 → α → Prop} {write : α → List UInt8} {as : List α}
    (h : ∀ a ∈ as, item (write a) a) : Sequence item (as.flatMap write) as := by
  induction as with
  | nil => exact .nil
  | cons a as ih =>
    rw [List.flatMap_cons]
    exact .cons (h a (by simp)) (ih fun b hb => h b (by simp [hb]))

theorem numbers_writeNumbers (ns : List Int64) : Numbers (writeNumbers ns) ns :=
  sequence_flatMap fun n _ => number_encode n

theorem toNat_toInt_ofNat {n : Nat} (h : n < 2 ^ 63) : (Int64.ofNat n).toInt.toNat = n := by
  rw [Int64.toInt_ofNat_of_lt h]
  rfl

/-- A list behind its number. -/
theorem counted_writeCounted {item : List UInt8 → α → Prop} {write : α → List UInt8}
    {as : List α} (hitem : ∀ a, item (write a) a) (h : as.length < 2 ^ 63) :
    Counted item (writeCounted write as) as :=
  ⟨Int64.ofNat as.length, (toNat_toInt_ofNat h).symm,
    inOrder_cons (number_encode _) (inOrder_last (sequence_flatMap fun a _ => hitem a))⟩

/-! ## Records -/

theorem reference_write {r : ObjectFile.Reference} (h : (Utf8.encode r.name).length < 2 ^ 63) :
    Reference r.write r :=
  inOrder_cons (text_encodeText h) (inOrder_last (number_encode _))

theorem relocation_write (r : ObjectFile.Relocation) : Relocation r.write r :=
  inOrder_cons (number_encode _) <| inOrder_cons (number_encode _) <|
    inOrder_cons (number_encode _) <| inOrder_cons (number_encode _) <|
    inOrder_cons (number_encode _) inOrder_nil

theorem local_write (l : ObjectFile.Local) : Local l.write l :=
  inOrder_cons (number_encode _) <| inOrder_cons (number_encode _) <|
    inOrder_cons (number_encode _) <| inOrder_cons (number_encode _) inOrder_nil

theorem inlinedCall_write (c : ObjectFile.InlinedCall) : InlinedCall c.write c :=
  inOrder_cons (number_encode _) <| inOrder_cons (number_encode _) <|
    inOrder_cons (number_encode _) <| inOrder_cons (number_encode _) inOrder_nil

/-- The function's data: the indices behind their number, and the offsets. -/
theorem functionData_write {data : List (Int64 × Int64)} (h : data.length < 2 ^ 63) :
    FunctionData
      (writeCounted (fun d => Varint.encode d.1) data ++ writeNumbers (data.map Prod.snd)) data := by
  have hids : data.flatMap (fun d => Varint.encode d.1) = writeNumbers (data.map Prod.fst) := by
    rw [writeNumbers, List.flatMap_map]
  refine ⟨Int64.ofNat data.length, (toNat_toInt_ofNat h).symm, ?_⟩
  rw [writeCounted, hids, List.append_assoc]
  exact inOrder_cons (number_encode _)
    (inOrder_cons (numbers_writeNumbers _) (inOrder_last (numbers_writeNumbers _)))

end Grammar

/-- The lists of a function part are short enough for their lengths to be written. -/
structure FunctionRecord.Fits (f : FunctionRecord) : Prop where
  locals : f.locals.length < 2 ^ 63
  auxTableSizes : f.auxTableSizes.length < 2 ^ 63
  data : f.data.length < 2 ^ 63
  fileIds : f.fileIds.length < 2 ^ 63
  inlined : f.inlined.length < 2 ^ 63

/-- The lists of a record are short enough for their lengths to be written. -/
structure SymbolRecord.Fits (r : SymbolRecord) : Prop where
  relocations : r.relocations.length < 2 ^ 63
  function : ∀ f ∈ r.function, f.Fits

namespace Grammar

theorem functionRecord_write {f : ObjectFile.FunctionRecord} (h : f.Fits) :
    FunctionRecord f.write f := by
  have hwrite : f.write = Varint.encode f.args ++ (Varint.encode f.frame ++
      (Varint.encode f.flags ++ (Varint.encode f.noSplit ++
      (writeCounted Local.write f.locals ++ (Varint.encode f.stackMapSize ++
      (Varint.encode f.fileTableSize ++ (Varint.encode f.lineTableSize ++
      (Varint.encode f.inlineTableSize ++ (writeCounted Varint.encode f.auxTableSizes ++
      ((writeCounted (fun d => Varint.encode d.1) f.data ++ writeNumbers (f.data.map Prod.snd)) ++
      (writeCounted Varint.encode f.fileIds ++
      writeCounted InlinedCall.write f.inlined))))))))))) := by
    simp [FunctionRecord.write, writeNumbers]
  rw [hwrite]
  exact inOrder_cons (number_encode _) <| inOrder_cons (number_encode _) <|
    inOrder_cons (number_encode _) <| inOrder_cons (number_encode _) <|
    inOrder_cons (counted_writeCounted local_write h.locals) <|
    inOrder_cons (number_encode _) <| inOrder_cons (number_encode _) <|
    inOrder_cons (number_encode _) <| inOrder_cons (number_encode _) <|
    inOrder_cons (counted_writeCounted number_encode h.auxTableSizes) <|
    inOrder_cons (functionData_write h.data) <|
    inOrder_cons (counted_writeCounted number_encode h.fileIds) <|
    inOrder_last (counted_writeCounted inlinedCall_write h.inlined)

theorem symbolRecord_write {r : ObjectFile.SymbolRecord} (h : r.Fits) :
    SymbolRecord r.write r := by
  have hwrite : r.write = [r.kind.toByte] ++ (Varint.encode r.id ++ (Varint.encode r.flags ++
      (Varint.encode r.size ++ (Varint.encode r.type ++ (Varint.encode r.dataSize ++
      (writeCounted Relocation.write r.relocations ++
      (r.function.map FunctionRecord.write).getD [])))))) := by
    simp [SymbolRecord.write, writeNumbers]
  have hfunction : FunctionPart ((r.function.map FunctionRecord.write).getD []) r.function := by
    cases hf : r.function with
    | none => rfl
    | some f => exact functionRecord_write (h.function f hf)
  refine ⟨by rw [r.textual, Symbol.Kind.isText_iff], ?_⟩
  rw [hwrite]
  exact inOrder_cons rfl <| inOrder_cons (number_encode _) <|
    inOrder_cons (number_encode _) <| inOrder_cons (number_encode _) <|
    inOrder_cons (number_encode _) <| inOrder_cons (number_encode _) <|
    inOrder_cons (counted_writeCounted relocation_write h.relocations) <|
    inOrder_last hfunction

/-! ## Files -/

/-- A table of records that are written as words. -/
theorem table_writeTable {record : List UInt8 → α → Prop} {write : α → List UInt8} {as : List α}
    (hrecord : ∀ a ∈ as, record (write a) a) : Table record (writeTable write as) as := by
  refine inOrder_cons (sequence_flatMap fun a ha => ?_) (inOrder_last rfl)
  exact inOrder_cons (u := [recordMarker]) rfl (inOrder_last (hrecord a ha))

theorem segmentHead_write {size : Nat} {hints : SizingHints} (h : size < 2 ^ 63) :
    SegmentHead (Varint.encode (Int64.ofNat size) ++ writeNumbers hints.toList) ⟨size, hints⟩ :=
  inOrder_cons (length_encode h) <| inOrder_cons (number_encode _) <|
    inOrder_cons (number_encode _) <| inOrder_cons (number_encode _) <|
    inOrder_cons (number_encode _) <| inOrder_cons (number_encode _) inOrder_nil

end Grammar

namespace Container

/-- The texts, the lists and the data segment of a container are short enough for their lengths
to be written. -/
structure Fits (c : Container) : Prop where
  names : ∀ r ∈ c.references, (Utf8.encode r.name).length < 2 ^ 63
  data : c.data.length < 2 ^ 63
  symbols : ∀ r ∈ c.symbols, r.Fits

/-- A file as it is written, up to the end of the footer. -/
def word (c : Container) : List UInt8 := { c with trailing := [] : Container }.write

theorem write_eq (c : Container) : c.write = c.word ++ c.trailing := by
  simp [write, word]

theorem word_eq (c : Container) :
    c.word = (c.noise ++ Envelope.opening) ++ ([Envelope.currentVersion] ++
      ((c.dependencies ++ [0]) ++ (writeTable Reference.write c.references ++
      ((Varint.encode (Int64.ofNat c.data.length) ++ writeNumbers c.hints.toList) ++
      (c.data ++ (writeTable SymbolRecord.write c.symbols ++ Envelope.closing)))))) := by
  simp [word, write]

/-- What is written of a well-formed container is a word of it. -/
theorem file_word_of_fits {c : Container} (h : c.WellFormed) (hfits : c.Fits) :
    File c.word c := by
  refine ⟨h.dependencies, ?_⟩
  rw [word_eq]
  exact inOrder_cons ⟨rfl, Envelope.not_infix_dropLast h.noise⟩ <| inOrder_cons rfl <|
    inOrder_cons rfl <|
    inOrder_cons (table_writeTable fun r hr => reference_write (hfits.names r hr)) <|
    inOrder_cons (segmentHead_write hfits.data) <| inOrder_cons rfl <|
    inOrder_cons (table_writeTable fun r hr => symbolRecord_write (hfits.symbols r hr)) <|
    inOrder_last rfl

end Container

/-! ## What is short when it is written -/

theorem length_le_length_flatMap {write : α → List UInt8} (hwrite : ∀ a, write a ≠ [])
    (as : List α) : as.length ≤ (as.flatMap write).length := by
  induction as with
  | nil => simp
  | cons a as ih =>
    have := List.length_pos_iff.2 (hwrite a)
    rw [List.flatMap_cons, List.length_append, List.length_cons]
    omega

theorem length_write_le (write : α → List UInt8) {as : List α} {a : α} (ha : a ∈ as) :
    (write a).length ≤ (as.flatMap write).length := by
  obtain ⟨l, r, rfl⟩ := List.append_of_mem ha
  rw [List.flatMap_append, List.flatMap_cons, List.length_append, List.length_append]
  omega

/-- A list has at most as many items as it has bytes behind its number. -/
theorem length_le_length_writeCounted {write : α → List UInt8} (hwrite : ∀ a, write a ≠ [])
    (as : List α) : as.length ≤ (writeCounted write as).length := by
  have := length_le_length_flatMap hwrite as
  rw [writeCounted, List.length_append]
  omega

theorem length_write_le_writeTable (write : α → List UInt8) {as : List α} {a : α} (ha : a ∈ as) :
    (write a).length ≤ (writeTable write as).length := by
  have := length_write_le (fun a => recordMarker :: write a) ha
  rw [List.length_cons] at this
  rw [writeTable, List.length_append]
  omega

theorem writeNumbers_ne_nil (n : Int64) (ns : List Int64) : writeNumbers (n :: ns) ≠ [] :=
  List.append_ne_nil_of_left_ne_nil (encode_ne_nil n) _

theorem Relocation.write_ne_nil (r : Relocation) : r.write ≠ [] := writeNumbers_ne_nil _ _

theorem Local.write_ne_nil (l : Local) : l.write ≠ [] := writeNumbers_ne_nil _ _

theorem InlinedCall.write_ne_nil (c : InlinedCall) : c.write ≠ [] := writeNumbers_ne_nil _ _

theorem FunctionRecord.fits_of_length_lt {f : FunctionRecord} (h : f.write.length < 2 ^ 63) :
    f.Fits := by
  have hlocals := length_le_length_writeCounted Local.write_ne_nil f.locals
  have haux := length_le_length_writeCounted encode_ne_nil f.auxTableSizes
  have hdata := length_le_length_writeCounted
    (fun d : Int64 × Int64 => encode_ne_nil d.1) f.data
  have hfiles := length_le_length_writeCounted encode_ne_nil f.fileIds
  have hinlined := length_le_length_writeCounted InlinedCall.write_ne_nil f.inlined
  simp only [write, List.length_append] at h
  constructor <;> omega

theorem SymbolRecord.fits_of_length_lt {r : SymbolRecord} (h : r.write.length < 2 ^ 63) :
    r.Fits := by
  have hrelocations := length_le_length_writeCounted Relocation.write_ne_nil r.relocations
  simp only [write, List.cons_append, List.length_cons, List.length_append] at h
  refine ⟨by omega, fun f hf => FunctionRecord.fits_of_length_lt ?_⟩
  rw [Option.mem_def.1 hf, Option.map_some, Option.getD_some] at h
  omega

namespace Container

theorem fits_of_length_lt {c : Container} (h : c.word.length < 2 ^ 63) : c.Fits := by
  rw [word_eq] at h
  simp only [List.length_append] at h
  refine ⟨fun r hr => ?_, by omega, fun r hr => SymbolRecord.fits_of_length_lt ?_⟩
  · have hwrite := length_write_le_writeTable Reference.write hr
    rw [Reference.write, Varint.encodeText, List.length_append, List.length_append] at hwrite
    omega
  · have hwrite := length_write_le_writeTable SymbolRecord.write hr
    omega

/-- What is written of a well-formed container is a word of it, if it has fewer bytes than a
number of 64 bits can say. -/
theorem file_word {c : Container} (h : c.WellFormed) (hsize : c.word.length < 2 ^ 63) :
    File c.word c :=
  file_word_of_fits h (fits_of_length_lt hsize)

/-- A file with a function that refers to itself, between noise and bytes behind the end. -/
def sample : Container where
  noise := [0x00, 0x67]
  dependencies := [0x66, 0x6D, 0x74]
  references := [⟨"main.f", 0⟩]
  hints := ⟨1, 0, 0, 0, -1⟩
  data := [0xC3, 0x90]
  symbols :=
    [{ kind := .text, id := 1, flags := 6, size := 2, type := -1, dataSize := 2
       relocations := [⟨0, 4, ⟨8⟩, 300, 1⟩]
       function := some
        { args := 8, frame := 0, flags := 1, noSplit := -1, locals := [⟨1, -8, 1, 0⟩]
          stackMapSize := 0, fileTableSize := 0, lineTableSize := 0, inlineTableSize := 0
          auxTableSizes := [0], data := [(1, 0), (1, 64)], fileIds := [1]
          inlined := [⟨-1, 1, 7, 1⟩] }
       textual := rfl }]
  trailing := [0xFF]

theorem sample_wellFormed : sample.WellFormed := ⟨by decide, by decide⟩

end Container

end ObjectFile
