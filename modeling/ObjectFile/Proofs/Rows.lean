import ObjectFile.Document
/-!
# The symbols behind an output

Each of the four outputs goes through the symbols on its own: the tables of symbols, of functions
and of relocations, and the list of symbols in a document.  They differ in where they have the
name of a symbol from and in when they look whether a filter lets it pass.  All the same, each of
them shows something for the symbols that are selected (`Object.selected`) and for no others.
-/

namespace ObjectFile

namespace Object

/-- The symbols whose names a filter lets pass. -/
def selected (o : Object) (filter : Option (String → Bool)) : List Symbol :=
  o.symbols.filter fun s => Report.includes filter (o.nameAt s.id)

theorem selected_none (o : Object) : o.selected none = o.symbols :=
  List.filter_eq_self.2 fun _ _ => rfl

theorem selected_some (o : Object) (keep : String → Bool) :
    o.selected (some keep) = o.symbols.filter fun s => keep (o.nameAt s.id) := rfl

/-- The two ways to the name of an index agree, for indices that lead nowhere too. -/
theorem name_referenceAt (o : Object) (index : Int64) :
    (o.referenceAt index).name = o.nameAt index := by
  rw [referenceAt, nameAt]
  cases o.reference? index <;> rfl

end Object

namespace Report

variable (o : Object) (filter : Option (String → Bool))

theorem rows_symbols :
    (symbols o filter).rows =
      (o.selected filter).map fun s => symbolRow o s (o.referenceAt s.id) := by
  rw [symbols]
  simp only [o.name_referenceAt]
  rw [Object.selected, ← List.filterMap_eq_map, List.filterMap_filter]
  rfl

theorem rows_functions :
    (functions o filter).rows = ((o.selected filter).filter (·.kind.isText)).map fun s =>
      [o.nameAt s.id, dataSummary o o.index s] := by
  have hselected : (o.selected filter).filter (·.kind.isText) =
      o.executables.filter fun s => includes filter (o.nameAt s.id) := by
    rw [Object.selected, Object.executables, List.filter_filter, List.filter_filter]
    simp only [Bool.and_comm]
  rw [hselected, ← List.filterMap_eq_map, List.filterMap_filter]
  rfl

theorem rows_relocations :
    (relocations o filter).rows = (o.selected filter).flatMap fun s =>
      s.relocations.map (relocationRow o (o.nameAt s.id)) := by
  rw [relocations, Object.selected]
  dsimp only
  induction o.symbols with
  | nil => rfl
  | cons s symbols ih =>
    rw [List.flatMap_cons, ih, List.filter_cons]
    split <;> simp

end Report

/-- The filter is looked at before it is asked about names. -/
theorem Object.document_eq (o : Object) (filter : Option (String → Bool)) :
    o.document filter = .object [
      ("data_len", .integer o.data.length),
      ("references", .array (o.references.toList.map Document.reference)),
      ("symbols",
        .array ((o.selected filter).map fun s => Document.symbol s (o.nameAt s.id)))] := by
  have hsymbols : ((o.selected filter).map fun s => Document.symbol s (o.nameAt s.id)) =
      o.symbols.filterMap fun s =>
        if Report.includes filter (o.nameAt s.id) then some (Document.symbol s (o.nameAt s.id))
        else none := by
    rw [selected, ← List.filterMap_eq_map, List.filterMap_filter]
    rfl
  rw [document, hsymbols]
  cases filter <;> rfl

end ObjectFile
