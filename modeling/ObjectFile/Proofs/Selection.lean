import ObjectFile.Proofs.Lookup
/-!
# What a predicate on names leaves of an output

The tables of a report and the symbols of a document are made of lines, and every line belongs
to a symbol: one line for each symbol, one for each function, one for each relocation of a symbol
and one item for each symbol.  A predicate on names takes away the lines of the symbols that it
does not choose and does nothing else (`Filtered`).  What is shown in the lines that are left is
what was shown before, so it may speak of symbols that are themselves not shown.

The four outputs are one case each of `filtered_flatMap`.
-/

namespace ObjectFile

/-- The value of a field of an object. -/
def Json.field? (key : String) : Json → Option Json
  | .object fields => fields.lookup key
  | _ => none

/-- The text that a document is. -/
def Json.text? : Json → Option String
  | .text s => some s
  | _ => none

namespace Object

variable {β : Type}

/-- Symbols with as many places for each as it has lines. -/
def owners (count : Symbol → Nat) (symbols : List Symbol) : List Symbol :=
  symbols.flatMap fun s => List.replicate (count s) s

/-- The lines `all` of an output, of which each symbol has `count`, become the lines `shown`
when only symbols whose names are chosen are to be shown. -/
structure Filtered (o : Object) (keep : String → Bool) (count : Symbol → Nat)
    (name : β → Option String) (all shown : List β) : Prop where
  /-- The lines of a symbol bear its name. -/
  named : all.map name = (owners count o.symbols).map fun s => some (o.nameAt s.id)
  /-- Shown are the lines that belong to symbols whose names are chosen. -/
  selects : shown = (((owners count o.symbols).zip all).filter fun line =>
    keep (o.nameAt line.1.id)).map Prod.snd
  /-- These symbols are the same for all outputs. -/
  belongs : shown.map name = (owners count (o.symbols.filter fun s => keep (o.nameAt s.id))).map
    fun s => some (o.nameAt s.id)

variable {o : Object} {keep : String → Bool} {name : β → Option String} {f : Symbol → List β}

/-- The lines of one symbol are all shown, or none is. -/
theorem map_snd_filter_zip_replicate (p : Symbol → Bool) (s : Symbol) (lines : List β) :
    (((List.replicate lines.length s).zip lines).filter fun line => p line.1).map Prod.snd =
      if p s then lines else [] := by
  induction lines with
  | nil => simp
  | cons line lines ih =>
    rw [List.length_cons, List.replicate_succ, List.zip_cons_cons, List.filter_cons]
    cases hp : p s with
    | false => simpa [hp] using ih
    | true => simpa [hp] using ih

theorem map_name_flatMap (hname : ∀ s, ∀ line ∈ f s, name line = some (o.nameAt s.id))
    (symbols : List Symbol) :
    (symbols.flatMap f).map name =
      (owners (fun s => (f s).length) symbols).map fun s => some (o.nameAt s.id) := by
  rw [owners, List.map_flatMap, List.map_flatMap]
  congr 1
  funext s
  rw [List.map_replicate]
  exact List.eq_replicate_iff.2 ⟨List.length_map _, by simpa using hname s⟩

/-- An output that goes through the symbols and shows some lines for each. -/
theorem filtered_flatMap (hname : ∀ s, ∀ line ∈ f s, name line = some (o.nameAt s.id)) :
    o.Filtered keep (fun s => (f s).length) name (o.symbols.flatMap f)
      ((o.selected (some keep)).flatMap f) where
  named := map_name_flatMap hname _
  selects := by
    rw [selected_some, owners]
    induction o.symbols with
    | nil => rfl
    | cons s symbols ih =>
      rw [List.flatMap_cons, List.flatMap_cons, List.zip_append List.length_replicate,
        List.filter_append, List.map_append, ← ih,
        map_snd_filter_zip_replicate (fun s => keep (o.nameAt s.id)), List.filter_cons]
      split <;> rfl
  belongs := map_name_flatMap hname _

/-- An output that shows one line for each symbol. -/
theorem filtered_map {g : Symbol → β} (hname : ∀ s, name (g s) = some (o.nameAt s.id)) :
    o.Filtered keep (fun _ => 1) name (o.symbols.map g) ((o.selected (some keep)).map g) := by
  rw [List.map_eq_flatMap, List.map_eq_flatMap]
  refine filtered_flatMap (f := fun s => [g s]) fun s line h => ?_
  rw [List.mem_singleton.1 h, hname]

end Object

/-! ## The four outputs -/

namespace Report

variable (o : Object) (keep : String → Bool)

/-- The line of a function; other symbols have none. -/
def functionRows (s : Symbol) : List (List String) :=
  if s.kind.isText then [[o.nameAt s.id, dataSummary o o.index s]] else []

theorem length_functionRows (s : Symbol) :
    (functionRows o s).length = if s.kind.isText then 1 else 0 := by
  rw [functionRows]
  split <;> rfl

theorem flatMap_functionRows (filter : Option (String → Bool)) :
    (o.selected filter).flatMap (functionRows o) = (functions o filter).rows := by
  rw [rows_functions]
  induction o.selected filter with
  | nil => rfl
  | cons s selected ih =>
    rw [List.flatMap_cons, ih, List.filter_cons, functionRows]
    split <;> rfl

theorem filtered_symbols :
    o.Filtered keep (fun _ => 1) (·[6]?) (symbols o none).rows (symbols o (some keep)).rows := by
  rw [rows_symbols, rows_symbols, o.selected_none]
  exact Object.filtered_map fun s => congrArg some (o.name_referenceAt s.id)

theorem filtered_functions :
    o.Filtered keep (fun s => if s.kind.isText then 1 else 0) (·[0]?)
      (functions o none).rows (functions o (some keep)).rows := by
  rw [← flatMap_functionRows, ← flatMap_functionRows, o.selected_none]
  simp only [← length_functionRows o]
  refine Object.filtered_flatMap fun s line h => ?_
  rw [functionRows] at h
  split at h
  · rw [List.mem_singleton.1 h]
    rfl
  · cases h

theorem filtered_relocations :
    o.Filtered keep (·.relocations.length) (·[0]?) (relocations o none).rows
      (relocations o (some keep)).rows := by
  rw [rows_relocations, rows_relocations, o.selected_none]
  have hlength : (·.relocations.length) =
      fun s : Symbol => (s.relocations.map (relocationRow o (o.nameAt s.id))).length := by
    funext s
    rw [List.length_map]
  rw [hlength]
  refine Object.filtered_flatMap fun s line h => ?_
  obtain ⟨r, -, rfl⟩ := List.mem_map.1 h
  rfl

end Report

namespace Document

/-- The name of a symbol, as its document has it. -/
def name? (item : Json) : Option String := (item.field? "name").bind Json.text?

theorem name?_symbol (s : Symbol) (name : String) : name? (symbol s name) = some name := by
  cases hf : s.function <;> simp [name?, symbol, hf, Json.field?, Json.text?, List.lookup_cons]

/-- The documents of the symbols whose names a filter lets pass. -/
def items (o : Object) (filter : Option (String → Bool)) : List Json :=
  (o.selected filter).map fun s => symbol s (o.nameAt s.id)

theorem filtered_items (o : Object) (keep : String → Bool) :
    o.Filtered keep (fun _ => 1) name? (items o none) (items o (some keep)) := by
  rw [items, items, o.selected_none]
  exact Object.filtered_map fun s => name?_symbol s _

end Document

/-- A predicate on names takes away, from the three tables of a report and from the symbols of a
document, the lines of those symbols that it does not choose, the same ones everywhere, and
leaves all else as it was; the name of an index that leads nowhere is empty.  The data of a
function that is shown still have the addresses of the symbols that define them, shown or not;
the references in the document and the size of the data are the same for every predicate. -/
theorem Object.filtered_outputs (o : Object) (keep : String → Bool) :
    o.Filtered keep (fun _ => 1) (·[6]?)
      (Report.symbols o none).rows (Report.symbols o (some keep)).rows ∧
    o.Filtered keep (fun s => if s.kind.isText then 1 else 0) (·[0]?)
      (Report.functions o none).rows (Report.functions o (some keep)).rows ∧
    o.Filtered keep (·.relocations.length) (·[0]?)
      (Report.relocations o none).rows (Report.relocations o (some keep)).rows ∧
    (∃ all shown, o.Filtered keep (fun _ => 1) Document.name? all shown ∧
      ∃ size references,
        o.document none =
          .object [("data_len", size), ("references", references), ("symbols", .array all)] ∧
        o.document (some keep) =
          .object [("data_len", size), ("references", references), ("symbols", .array shown)]) ∧
    (∀ id, o.reference? id = none → o.nameAt id = "") ∧
    ∀ s ∈ o.symbols, keep (o.nameAt s.id) → s.kind.isText →
      [o.nameAt s.id, String.intercalate ", " (Report.dataEntries o s)] ∈
        (Report.functions o (some keep)).rows ∧
      ∀ k id d, s.dataIds[k]? = some id → o.Defines id d →
        (Report.dataEntries o s)[k]? = some (Numeral.natural k ++ " - " ++ o.nameAt id ++ " " ++
          Report.address d.block) := by
  refine ⟨Report.filtered_symbols o keep, Report.filtered_functions o keep,
    Report.filtered_relocations o keep,
    ⟨_, _, Document.filtered_items o keep, _, _, o.document_eq none, o.document_eq (some keep)⟩,
    fun id hid => ?_, fun s hs hkeep htext => ⟨?_, fun k id d hk hd => ?_⟩⟩
  · rw [nameAt, hid]
    rfl
  · have hselected : s ∈ o.selected (some keep) := List.mem_filter.2 ⟨hs, hkeep⟩
    rw [Report.rows_functions]
    refine List.mem_map.2 ⟨s, List.mem_filter.2 ⟨hselected, htext⟩, ?_⟩
    rw [Report.dataSummary_eq]
  · rw [Report.dataEntries, List.getElem?_mapIdx, hk, Option.map_some, Report.dataEntry_eq,
      Report.blockAt_of_defines hd]

/-- Only the function is chosen; the address of its data is that of a variable that is not, and
a relocation of a symbol whose index leads nowhere is not shown either. -/
theorem Object.filtered_outputs_hidden :
    let f : Symbol :=
      { id := 1, kind := .text, size := 16, duplicateOk := false, isLocal := false
        typeLink := false, type := 0, block := ⟨16, 0⟩, relocations := [⟨4, 4, ⟨8⟩, -4, 2⟩]
        function := some
          { args := 0, frame := 0, leaf := false, cFunction := false, typeMethod := false
            shared := false, noSplit := false, locals := [], stackMap := ⟨0, 16⟩
            fileTable := ⟨0, 16⟩, lineTable := ⟨0, 16⟩, inlineTable := ⟨0, 16⟩, auxTables := []
            dataIds := [2], dataOffsets := [0], fileIds := [] } }
    let v : Symbol :=
      { f with id := 2, kind := .readOnlyData, size := 8, block := ⟨8, 16⟩, relocations := []
               function := none }
    let u : Symbol := { v with id := -1, relocations := [⟨0, 8, ⟨1⟩, 0, 1⟩] }
    let o : Object :=
      { references := #[⟨"", 0⟩, ⟨"f", 0⟩, ⟨"v", 0⟩], symbols := [f, v, u], data := [] }
    let keep : String → Bool := (· == "f")
    (f ∈ o.symbols ∧ keep (o.nameAt f.id) ∧ f.kind.isText) ∧
    (o.reference? u.id = none ∧ o.nameAt u.id = "") ∧
    (Report.relocations o (some keep)).rows = [["f", "0x4", "0x4", "R_CALL", "v+-4"]] ∧
    o.Defines 2 v ∧ keep (o.nameAt v.id) = false ∧
    (Report.dataEntries o f)[0]? = some "0 - v (0x10 - 8)" := by
  intro f v u o keep
  obtain ⟨-, -, hrelocations, -, hnone, hfunctions⟩ := filtered_outputs o keep
  have hf : f ∈ o.symbols ∧ keep (o.nameAt f.id) ∧ f.kind.isText := by decide +kernel
  have hu : o.reference? u.id = none := by decide +kernel
  have hv : o.Defines 2 v := ⟨[f], _, rfl, rfl, by decide⟩
  have hentry := (hfunctions f hf.1 hf.2.1 hf.2.2).2 0 2 v rfl hv
  exact ⟨hf, ⟨hu, hnone _ hu⟩, hrelocations.selects.trans (by decide +kernel), hv,
    by decide +kernel, hentry.trans (by decide +kernel)⟩

end ObjectFile
