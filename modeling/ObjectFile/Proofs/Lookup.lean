import Std.Data.HashMap.Lemmas
import ObjectFile.Proofs.Numeral
import ObjectFile.Proofs.Rows
/-!
# Symbols by index

Several symbols may have one index, in any order and among others, and an index may be any
number.  The symbol that an index stands for is the first one that has it (`Object.Defines`).
The index of an object finds just that one (`SymbolIndex.find?_ofSymbols`), and what a report
shows for the data of a function is the address of just that one (`Object.find?_index_first`).

* The index is built by entering the places of one symbol after another, so what it holds after
  some symbols is described for any places that it held before them, and wherever the first of
  them stands.
* An address is told from its text, so that of no block is shown for no other block.
-/

namespace ObjectFile

open Numeral (natural signedHex decimal)

namespace SymbolIndex

/-- What was entered stays, and of what is entered the first place of an index counts. -/
theorem getElem?_foldl_enter (places : Std.HashMap Int64 Nat) (symbols : List Symbol)
    (start : Nat) (id : Int64) :
    ((symbols.zipIdx start).foldl enter places)[id]? =
      places[id]?.or ((symbols.findIdx? (·.id == id)).map (· + start)) := by
  induction symbols generalizing places start with
  | nil => simp
  | cons s symbols ih =>
    have hshift : (fun place => place + (start + 1)) = (· + start) ∘ (· + 1) := by
      funext place
      rw [Function.comp_apply]
      omega
    rw [List.zipIdx_cons, List.foldl_cons, ih, enter, Std.HashMap.getElem?_insertIfNew,
      List.findIdx?_cons, hshift, ← Option.map_map]
    cases hid : s.id == id with
    | false => simp
    | true =>
      rw [beq_iff_eq] at hid
      subst hid
      by_cases hmem : s.id ∈ places
      · simp [hmem]
      · simp [hmem]

/-- A lookup in the index is a search from the front. -/
theorem find?_ofSymbols (symbols : List Symbol) (id : Int64) :
    (ofSymbols symbols).find? id = symbols.find? (·.id == id) := by
  rw [find?, ofSymbols, getElem?_foldl_enter, Std.HashMap.getElem?_empty, Option.none_or,
    List.find?_eq_bind_findIdx?_getElem?]
  simp

end SymbolIndex

namespace Object

variable {o : Object} {id : Int64} {s t : Symbol}

/-- A symbol is the first one of an index. -/
def Defines (o : Object) (id : Int64) (s : Symbol) : Prop :=
  ∃ before after, o.symbols = before ++ s :: after ∧ s.id = id ∧ ∀ t ∈ before, t.id ≠ id

/-- An object with further symbols behind its own. -/
def extend (o : Object) (more : List Symbol) : Object := { o with symbols := o.symbols ++ more }

theorem find?_index_eq_some_iff : o.index.find? id = some s ↔ o.Defines id s := by
  rw [index, SymbolIndex.find?_ofSymbols, List.find?_eq_some_iff_append, Defines]
  simp only [beq_iff_eq, Bool.not_eq_true', beq_eq_false_iff_ne]
  constructor
  · rintro ⟨hid, before, after, hsymbols, hbefore⟩
    exact ⟨before, after, hsymbols, hid, hbefore⟩
  · rintro ⟨before, after, hsymbols, hid, hbefore⟩
    exact ⟨hid, before, after, hsymbols, hbefore⟩

theorem find?_index_eq_none_iff : o.index.find? id = none ↔ ∀ s ∈ o.symbols, s.id ≠ id := by
  rw [index, SymbolIndex.find?_ofSymbols, List.find?_eq_none]
  simp only [beq_iff_eq, ne_eq]

theorem find?_index_extend (o : Object) (more : List Symbol) (id : Int64) :
    (o.extend more).index.find? id =
      (o.index.find? id).or ((SymbolIndex.ofSymbols more).find? id) := by
  simp only [index, extend, SymbolIndex.find?_ofSymbols, List.find?_append]

end Object

namespace Report

/-- A block as it is shown. -/
def address (b : Block) : String :=
  "(" ++ signedHex b.offset.toInt ++ " - " ++ decimal b.size.toInt ++ ")"

theorem address_injective : Function.Injective address := by
  intro b c h
  have htext := congrArg String.toList h
  simp only [address, String.toList_append, List.append_assoc] at htext
  -- the offset ends before the first blank
  obtain ⟨hoffset, hrest⟩ := (append_cons_inj (Numeral.blank_notMem_signedHex _)
    (Numeral.blank_notMem_signedHex _)).1 (List.cons.inj htext).2
  have hsize := List.append_cancel_right (List.append_cancel_left hrest)
  have hoffset := Numeral.signedHex_injective (String.toList_injective hoffset)
  have hsize := Numeral.decimal_injective (String.toList_injective hsize)
  rw [Int64.toInt_inj] at hoffset hsize
  cases b
  cases c
  exact congrArg₂ _ hsize hoffset

/-- The block that an index leads to; an index of no symbol leads to an empty one at the
beginning. -/
def blockAt (o : Object) (id : Int64) : Block :=
  ((o.index.find? id).map Symbol.block).getD ⟨0, 0⟩

theorem dataEntry_eq (o : Object) (number : Nat) (id : Int64) :
    dataEntry o o.index number id =
      natural number ++ " - " ++ o.nameAt id ++ " " ++ address (blockAt o id) := by
  simp only [dataEntry, address, blockAt, String.append_assoc]
  rfl

theorem blockAt_of_defines {o : Object} {id : Int64} {s : Symbol} (h : o.Defines id s) :
    blockAt o id = s.block := by
  rw [blockAt, Object.find?_index_eq_some_iff.2 h]
  rfl

theorem blockAt_eq_zero_iff {o : Object} {id : Int64} :
    blockAt o id = ⟨0, 0⟩ ↔
      (∀ s ∈ o.symbols, s.id ≠ id) ∨ ∃ s, o.Defines id s ∧ s.block = ⟨0, 0⟩ := by
  rw [← Object.find?_index_eq_none_iff]
  simp only [← Object.find?_index_eq_some_iff]
  rw [blockAt]
  cases o.index.find? id <;> simp

end Report

/-- The indices of the references to the data of a symbol's function, if it has one. -/
def Symbol.dataIds (s : Symbol) : List Int64 := (s.function.map Function.dataIds).getD []

/-- The pieces of the data of a symbol's function, as a report shows them. -/
def Report.dataEntries (o : Object) (s : Symbol) : List String :=
  s.dataIds.mapIdx (Report.dataEntry o o.index)

theorem Report.dataSummary_eq (o : Object) (s : Symbol) :
    dataSummary o o.index s = String.intercalate ", " (dataEntries o s) := by
  rw [dataSummary, dataEntries, Symbol.dataIds]
  cases s.function <;> rfl

/-- Looking up an index is searching the symbols from the front: found is the first symbol that
has the index, and nothing only if no symbol has it.  So symbols that are put behind the others
change no answer that there was.

In a report the data of a function are shown piece by piece, each with the address of the first
symbol that has its index.  The address of no bytes at the beginning is shown just if there is no
such symbol or that is where it lies. -/
theorem Object.find?_index_first (o : Object) (id : Int64) :
    o.index.find? id = o.symbols.find? (·.id == id) ∧
    (∀ s, o.index.find? id = some s ↔ o.Defines id s) ∧
    (o.index.find? id = none ↔ ∀ s ∈ o.symbols, s.id ≠ id) ∧
    (∀ more s, o.index.find? id = some s → (o.extend more).index.find? id = some s) ∧
    (∀ filter, (Report.functions o filter).rows =
      ((o.selected filter).filter (·.kind.isText)).map fun s =>
        [o.nameAt s.id, String.intercalate ", " (Report.dataEntries o s)]) ∧
    ∀ s, (Report.dataEntries o s).length = s.dataIds.length ∧
      ∀ k, s.dataIds[k]? = some id → ∃ shown,
        (Report.dataEntries o s)[k]? =
          some (natural k ++ " - " ++ o.nameAt id ++ " " ++ shown) ∧
        (∀ d, o.Defines id d → shown = Report.address d.block) ∧
        (shown = "(0x0 - 0)" ↔
          (∀ d ∈ o.symbols, d.id ≠ id) ∨ ∃ d, o.Defines id d ∧ d.block = ⟨0, 0⟩) := by
  refine ⟨SymbolIndex.find?_ofSymbols _ _, fun s => find?_index_eq_some_iff,
    find?_index_eq_none_iff, fun more s h => ?_, fun filter => ?_, fun s => ⟨?_, fun k hk => ?_⟩⟩
  · rw [find?_index_extend, h, Option.some_or]
  · simp only [Report.rows_functions, Report.dataSummary_eq]
  · exact List.length_mapIdx
  · refine ⟨Report.address (Report.blockAt o id), ?_, fun d hd => ?_, ?_⟩
    · rw [Report.dataEntries, List.getElem?_mapIdx, hk, Option.map_some, Report.dataEntry_eq]
    · rw [Report.blockAt_of_defines hd]
    · have hzero : Report.address ⟨0, 0⟩ = "(0x0 - 0)" := by decide +kernel
      rw [← hzero, Report.address_injective.eq_iff, Report.blockAt_eq_zero_iff]

/-- A function that shows the data of two variables: the index of one is negative, and that of
the other is an index of a second one too, both before and after a third is put behind them. -/
theorem Object.find?_index_first_repeated :
    let v (id : Int64) (b : Block) : Symbol :=
      { id := id, kind := .data, size := b.size, duplicateOk := false, isLocal := false
        typeLink := false, type := 0, block := b, relocations := [], function := none }
    let f : Symbol :=
      { v 1 ⟨16, 0⟩ with
        kind := .text
        function := some
          { args := 0, frame := 0, leaf := false, cFunction := false, typeMethod := false
            shared := false, noSplit := false, locals := [], stackMap := ⟨0, 16⟩
            fileTable := ⟨0, 16⟩, lineTable := ⟨0, 16⟩, inlineTable := ⟨0, 16⟩, auxTables := []
            dataIds := [-7, 2], dataOffsets := [0, 0], fileIds := [] } }
    let o : Object :=
      { references := #[⟨"", 0⟩, ⟨"f", 0⟩, ⟨"v", 0⟩]
        symbols := [f, v 2 ⟨8, 16⟩, v (-7) ⟨0, 0⟩, v 2 ⟨4, 24⟩]
        data := [] }
    let more := [v 2 ⟨0, 0⟩]
    (o.index.find? 2 = some (v 2 ⟨8, 16⟩) ∧
      (o.extend more).index.find? 2 = some (v 2 ⟨8, 16⟩)) ∧
    (f.dataIds[1]? = some 2 ∧ (Report.dataEntries o f)[1]? = some "1 - v (0x10 - 8)") ∧
    f.dataIds[0]? = some (-7 : Int64) ∧ (Report.dataEntries o f)[0]? = some "0 -  (0x0 - 0)" := by
  intro v f o more
  obtain ⟨-, hfirst, -, hmore, -, hentries⟩ := find?_index_first o 2
  have hv : o.Defines 2 (v 2 ⟨8, 16⟩) := ⟨[f], _, rfl, rfl, by decide⟩
  have hfound := (hfirst _).2 hv
  have h1 : f.dataIds[1]? = some 2 := rfl
  obtain ⟨_, hentry, haddress, -⟩ := (hentries f).2 1 h1
  rw [haddress _ hv] at hentry
  have h0 : f.dataIds[0]? = some (-7 : Int64) := rfl
  have hz : o.Defines (-7) (v (-7) ⟨0, 0⟩) :=
    ⟨[f, v 2 ⟨8, 16⟩], _, rfl, rfl, by decide⟩
  obtain ⟨_, hzero, -, hshown⟩ := ((find?_index_first o (-7)).2.2.2.2.2 f).2 0 h0
  rw [hshown.2 (.inr ⟨_, hz, rfl⟩)] at hzero
  exact ⟨⟨hfound, hmore more _ hfound⟩, ⟨h1, hentry.trans (by decide +kernel)⟩, h0,
    hzero.trans (by decide +kernel)⟩

end ObjectFile
