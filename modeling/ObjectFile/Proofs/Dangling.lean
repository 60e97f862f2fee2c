import ObjectFile.Proofs.Layout
import ObjectFile.Proofs.Selection
/-!
# Indices that lead nowhere

The indices in an object are those of the file, and an index may be negative or lie beyond the
last reference.  Wherever a name or a version is shown, such an index counts as one of no
reference.  So it may as well be zero, provided that the first reference is the empty one, as it
is in every object that was read (`Object.mended_outputs`).

References are looked up in two ways, `Object.referenceAt` and `Object.nameAt`, and an index that
is mended leads to the same in both.  All that is shown of a symbol but its function comes from
there and from what the mending leaves alone; the lines of the mended object are therefore equal
to those of the object, one by one.
-/

namespace ObjectFile

/-! ## Mending -/

/-- If there is a first reference, it is the empty one. -/
def Object.BeginsEmpty (o : Object) : Prop := ∀ r, o.references[0]? = some r → r = .empty

/-- Zero instead of an index that is negative or beyond the last reference. -/
def Object.mend (o : Object) (index : Int64) : Int64 :=
  if 0 ≤ index.toInt ∧ index.toInt < o.references.size then index else 0

/-- A symbol whose indices are mended: its own, that of its type and those of its relocations.
What becomes of its function is left open. -/
def Symbol.mend (o : Object) (change : Function → Function) (s : Symbol) : Symbol :=
  { s with
    id := o.mend s.id
    type := o.mend s.type
    relocations := s.relocations.map fun r => { r with target := o.mend r.target }
    function := s.function.map change }

/-- An object whose symbols are mended. -/
def Object.mended (o : Object) (change : Function → Function) : Object :=
  { o with symbols := o.symbols.map (Symbol.mend o change) }

namespace Object

variable {o : Object} {change : Function → Function}

theorem reference?_eq_none_iff {index : Int64} :
    o.reference? index = none ↔ index.toInt < 0 ∨ o.references.size ≤ index.toInt := by
  rw [reference?]
  split <;> rename_i hzero <;> rw [Int64.le_iff_toInt_le, Int64.toInt_zero] at hzero
  · rw [Array.getElem?_eq_none_iff]
    omega
  · exact iff_of_true rfl (by omega)

/-- An index that is mended leads to the same reference as before. -/
theorem referenceAt_mend (h : o.BeginsEmpty) (index : Int64) :
    o.referenceAt (o.mend index) = o.referenceAt index := by
  rw [mend]
  split
  · rfl
  · rename_i hindex
    have hnone : o.reference? index = none := reference?_eq_none_iff.2 (by omega)
    have hzero : o.reference? 0 = o.references[0]? := rfl
    rw [referenceAt, referenceAt, hnone, hzero]
    cases hfirst : o.references[0]? with
    | none => rfl
    | some r => exact h r hfirst

theorem nameAt_mend (h : o.BeginsEmpty) (index : Int64) :
    o.nameAt (o.mend index) = o.nameAt index := by
  rw [← name_referenceAt, ← name_referenceAt, referenceAt_mend h]

-- the references stay as they are
theorem nameAt_mended (o : Object) (change : Function → Function) :
    (o.mended change).nameAt = o.nameAt := rfl

/-- A filter lets the same symbols pass as before. -/
theorem selected_mended (h : o.BeginsEmpty) (filter : Option (String → Bool)) :
    (o.mended change).selected filter = (o.selected filter).map (Symbol.mend o change) := by
  have hpasses : (fun s : Symbol => Report.includes filter (o.nameAt s.id)) ∘
      Symbol.mend o change = fun s => Report.includes filter (o.nameAt s.id) :=
    funext fun s => congrArg (Report.includes filter) (nameAt_mend h s.id)
  rw [selected, selected, nameAt_mended, mended, List.filter_map, hpasses]

end Object

/-! ## Lines -/

namespace Report

variable {o : Object} {change : Function → Function}

theorem symbolRow_mend (h : o.BeginsEmpty) (s : Symbol) (r : Reference) :
    symbolRow (o.mended change) (s.mend o change) r = symbolRow o s r := by
  simp only [symbolRow, Object.nameAt_mended, Symbol.mend, Object.nameAt_mend h]

theorem relocationRows_mend (h : o.BeginsEmpty) (s : Symbol) (owner : String) :
    (s.mend o change).relocations.map (relocationRow (o.mended change) owner) =
      s.relocations.map (relocationRow o owner) := by
  rw [Symbol.mend, List.map_map]
  refine List.map_congr_left fun r _ => ?_
  simp only [Function.comp_apply, relocationRow, Object.nameAt_mended, Object.nameAt_mend h]

/-- The names that are shown; no kinds of symbols are mended. -/
theorem nameAt_id_mend (h : o.BeginsEmpty) (s : Symbol) :
    (o.mended change).nameAt (s.mend o change).id = o.nameAt s.id :=
  Object.nameAt_mend h s.id

theorem symbols_mended (h : o.BeginsEmpty) (filter : Option (String → Bool)) :
    (symbols (o.mended change) filter).rows = (symbols o filter).rows := by
  rw [rows_symbols, rows_symbols, Object.selected_mended h, List.map_map]
  refine List.map_congr_left fun s _ => ?_
  have hreference : (o.mended change).referenceAt (s.mend o change).id = o.referenceAt s.id :=
    Object.referenceAt_mend h s.id
  rw [Function.comp_apply, hreference, symbolRow_mend h]

theorem relocations_mended (h : o.BeginsEmpty) (filter : Option (String → Bool)) :
    (relocations (o.mended change) filter).rows = (relocations o filter).rows := by
  rw [rows_relocations, rows_relocations, Object.selected_mended h, List.flatMap_map]
  congr 1
  funext s
  rw [nameAt_id_mend h, relocationRows_mend h]

theorem names_functions (h : o.BeginsEmpty) (change : Function → Function)
    (filter : Option (String → Bool)) :
    (functions (o.mended change) filter).rows.map (·[0]?) =
      (functions o filter).rows.map (·[0]?) := by
  have hnames (o : Object) : (functions o filter).rows.map (·[0]?) =
      ((o.selected filter).filter (·.kind.isText)).map fun s => some (o.nameAt s.id) := by
    rw [rows_functions, List.map_map]
    rfl
  rw [hnames, hnames, Object.selected_mended h, List.filter_map, List.map_map]
  refine List.map_congr_left fun s _ => ?_
  rw [Function.comp_apply, nameAt_id_mend h]

end Report

/-- A column with the same cells in both tables has the same width in both. -/
theorem Table.getElem?_widths_congr {t u : Table} {i : Nat} (hheaders : t.headers = u.headers)
    (hrows : t.rows.map (·[i]?) = u.rows.map (·[i]?)) : t.widths[i]? = u.widths[i]? := by
  have hcolumn (t : Table) : Table.column t.lines i =
      (t.headers[i]? :: t.rows.map (·[i]?)).filterMap (·.map String.utf8ByteSize) := by
    rw [column, lines, ← List.map_cons (f := fun row : List String => row[i]?), List.filterMap_map]
    rfl
  rw [getElem?_widths, getElem?_widths, hcolumn, hcolumn, hheaders, hrows]

namespace Document

/-- The items of a document that is a list. -/
def itemsOf : Json → List Json
  | .array items => items
  | _ => []

/-- The names of the symbols in the document of an object. -/
def names (document : Json) : List (Option String) :=
  (((document.field? "symbols").map itemsOf).getD []).map name?

theorem names_document (o : Object) (filter : Option (String → Bool)) :
    names (o.document filter) = (o.selected filter).map fun s => some (o.nameAt s.id) := by
  have hname : (fun s : Symbol => some (o.nameAt s.id)) =
      name? ∘ fun s => symbol s (o.nameAt s.id) := funext fun s => (name?_symbol s _).symm
  rw [o.document_eq, hname, ← List.map_map]
  rfl

end Document

/-- Indices that are negative or beyond the last reference count as those of no reference.  If
the first reference is the empty one, or there is none, zero may be put in the place of every
such index of a symbol, of its type and of its relocations, and whatever filter there is, the
table of symbols, the table of relocations, the names in the document and those in the table of
functions, with the width of their column, are the same as before.  What becomes of the functions
that symbols carry makes no difference to these. -/
theorem Object.mended_outputs {o : Object} (h : o.BeginsEmpty) (change : Function → Function)
    (filter : Option (String → Bool)) :
    (Report.symbols (o.mended change) filter).text = (Report.symbols o filter).text ∧
    (Report.relocations (o.mended change) filter).text = (Report.relocations o filter).text ∧
    Document.names ((o.mended change).document filter) = Document.names (o.document filter) ∧
    (Report.functions (o.mended change) filter).rows.map (·[0]?) =
      (Report.functions o filter).rows.map (·[0]?) ∧
    (Report.functions (o.mended change) filter).widths[0]? =
      (Report.functions o filter).widths[0]? := by
  have hnames := Report.names_functions h change filter
  refine ⟨?_, ?_, ?_, hnames, Table.getElem?_widths_congr rfl hnames⟩
  · exact congrArg (fun rows => Table.text ⟨_, rows⟩) (Report.symbols_mended h filter)
  · exact congrArg (fun rows => Table.text ⟨_, rows⟩) (Report.relocations_mended h filter)
  · rw [Document.names_document, Document.names_document, selected_mended h, List.map_map]
    refine List.map_congr_left fun s _ => ?_
    rw [Function.comp_apply, Report.nameAt_id_mend h]

/-- An object whose second symbol and its indices lead nowhere. -/
def Object.astray : Object where
  references := #[.empty, ⟨"main.f", 1⟩]
  symbols :=
    [⟨1, .text, 4, false, false, false, 2, ⟨4, 0⟩, [⟨0, 4, ⟨8⟩, 0, -1⟩, ⟨0, 4, ⟨8⟩, 0, 1⟩], none⟩,
      ⟨-3, .text, 4, true, false, false, 1, ⟨4, 4⟩, [⟨0, 4, ⟨3⟩, -2, 9⟩], none⟩]
  data := [1, 2, 3, 4, 5, 6, 7, 8]

/-- The symbol that leads nowhere is chosen with its mended index as without. -/
theorem Object.mended_outputs_astray :
    let unnamed : Option (String → Bool) := some (· = "")
    astray.BeginsEmpty ∧
    (astray.mended id).symbols.map (·.id) = [1, 0] ∧
    (astray.mended id).symbols.flatMap (·.relocations.map (·.target)) = [0, 1, 0] ∧
    Document.names (astray.document unnamed) = [some ""] ∧
    Document.names ((astray.mended id).document unnamed) = [some ""] ∧
    (Report.symbols (astray.mended id) unnamed).text = (Report.symbols astray unnamed).text := by
  intro unnamed
  have hempty : astray.BeginsEmpty := fun r hr => (Option.some.inj hr).symm
  obtain ⟨hsymbols, -, hnames, -⟩ := mended_outputs hempty id unnamed
  have hfirst : Document.names (astray.document unnamed) = [some ""] := by decide
  exact ⟨hempty, by decide, by decide, hfirst, hnames.trans hfirst, hsymbols⟩

end ObjectFile
