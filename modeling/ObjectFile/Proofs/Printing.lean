import ObjectFile.Proofs.Layout
import ObjectFile.Proofs.Rows
/-!
# How far a report is printed

A report is printed piece by piece, and the one kind of piece that can be refused is a cell of a
table that needs more than 65535 blanks to be as wide as its column (`Table.Narrow` says that it
does not).  If no cell does, the whole report is printed, and otherwise what stands in front of
the first one that does (`Object.printReport_eq`).  That is never nothing and never all
(`Object.BreaksAfter.proper`).

A line is printed out of cells, a table out of lines and a report out of tables.  All three are
lists that are printed item by item, so for all of them there are the same two lemmas: on lists of
which every item is printed (`Printed.inOrder_complete`) and on lists in which there is a first
item that breaks off (`Printed.inOrder_broken`).
-/

namespace ObjectFile

namespace Printed

variable {α : Type} {print : α → Printed} {shown : α → String} {items before after : List α}

theorem complete_andThen_assoc (text : String) (p q : Printed) :
    ((complete text).andThen p).andThen q = (complete text).andThen (p.andThen q) := by
  cases p <;> cases q <;> simp [andThen, String.append_assoc]

/-- Items of which every one is printed. -/
theorem inOrder_complete (h : ∀ a ∈ items, print a = complete (shown a)) (rest : List Printed) :
    inOrder (items.map print ++ rest) =
      (complete (String.join (items.map shown))).andThen (inOrder rest) := by
  induction items with
  | nil => cases hrest : inOrder rest <;> simp [andThen, hrest]
  | cons a items ih =>
    rw [List.map_cons, List.cons_append, inOrder, List.foldr_cons, ← inOrder,
      ih fun b hb => h b (List.mem_cons_of_mem a hb), h a List.mem_cons_self,
      ← complete_andThen_assoc, List.map_cons, String.join_cons]
    rfl

/-- Items of which one breaks off, and those in front of it do not. -/
theorem inOrder_broken (hbefore : ∀ a ∈ before, print a = complete (shown a)) {a : α}
    {text : String} (ha : print a = broken text) (rest : List Printed) :
    inOrder ((before ++ a :: after).map print ++ rest) =
      broken (String.join (before.map shown) ++ text) := by
  rw [List.map_append, List.append_assoc, inOrder_complete hbefore, List.map_cons, ha]
  rfl

end Printed

/-- Either all items have a property, or there is a first one that has not. -/
theorem forall_or_exists_first {α : Type} (p : α → Prop) (items : List α) :
    (∀ a ∈ items, p a) ∨
      ∃ before a after, items = before ++ a :: after ∧ (∀ b ∈ before, p b) ∧ ¬ p a := by
  induction items with
  | nil => exact .inl fun a ha => absurd ha List.not_mem_nil
  | cons a items ih =>
    by_cases ha : p a
    · obtain hall | ⟨before, b, after, rfl, hbefore, hb⟩ := ih
      · exact .inl (List.forall_mem_cons.2 ⟨ha, hall⟩)
      · exact .inr ⟨a :: before, b, after, rfl, List.forall_mem_cons.2 ⟨ha, hbefore⟩, hb⟩
    · exact .inr ⟨[], a, items, rfl, fun b hb => absurd hb List.not_mem_nil, ha⟩

namespace Table

variable {ws : List Nat} {row : List String} {t : Table} {front : String}

/-! ## Lines -/

/-- A cell in a column of some width needs no more blanks than can be asked for. -/
def Narrow (cell : String × Nat) : Prop := cell.2 - cell.1.utf8ByteSize + 1 ≤ 65535

instance (cell : String × Nat) : Decidable (Narrow cell) :=
  inferInstanceAs (Decidable (_ ≤ _))

/-- A line that is printed to its end. -/
def LinePrintable (ws : List Nat) (row : List String) : Prop := ∀ cell ∈ row.zip ws, Narrow cell

instance (ws : List Nat) (row : List String) : Decidable (LinePrintable ws row) :=
  inferInstanceAs (Decidable (∀ cell ∈ row.zip ws, Narrow cell))

/-- What stands in a line in front of the first cell that needs too many blanks. -/
def LineBreaksAfter (ws : List Nat) (row : List String) (front : String) : Prop :=
  ∃ before cell after, row.zip ws = before ++ cell :: after ∧ (∀ c ∈ before, Narrow c) ∧
    ¬ Narrow cell ∧ front = " " ++ String.join (before.map fun c => pad c.1 c.2)

theorem printCell_of_narrow {cell : String × Nat} (h : Narrow cell) :
    printCell cell.1 cell.2 = .complete (pad cell.1 cell.2) := if_pos h

theorem printCell_of_not_narrow {cell : String × Nat} (h : ¬ Narrow cell) :
    printCell cell.1 cell.2 = .broken "" := if_neg h

theorem printLine_eq (ws : List Nat) (row : List String) :
    printLine ws row = (Printed.complete " ").andThen
      (.inOrder ((row.zip ws).map (fun cell => printCell cell.1 cell.2) ++ [.complete "\n"])) := by
  rw [printLine, List.zip_eq_zipWith, List.map_zipWith]
  rfl

theorem line_eq (ws : List Nat) (row : List String) :
    line ws row = " " ++ String.join ((row.zip ws).map fun cell => pad cell.1 cell.2) ++ "\n" := by
  rw [line, List.zip_eq_zipWith, List.map_zipWith]

theorem printLine_of_printable (h : LinePrintable ws row) :
    printLine ws row = .complete (line ws row) := by
  rw [printLine_eq, line_eq, Printed.inOrder_complete fun cell hcell =>
    printCell_of_narrow (h cell hcell)]
  simp [Printed.inOrder, Printed.andThen, String.append_assoc]

theorem printLine_of_not_printable (h : ¬ LinePrintable ws row) :
    ∃ front, LineBreaksAfter ws row front ∧ printLine ws row = .broken front := by
  obtain hall | ⟨before, cell, after, hzip, hbefore, hcell⟩ :=
    forall_or_exists_first Narrow (row.zip ws)
  · exact absurd hall h
  · refine ⟨_, ⟨before, cell, after, hzip, hbefore, hcell, rfl⟩, ?_⟩
    rw [printLine_eq, hzip, Printed.inOrder_broken (fun c hc => printCell_of_narrow (hbefore c hc))
      (printCell_of_not_narrow hcell)]
    simp [Printed.andThen]

/-- There is more in a line than what stands in front of a cell. -/
theorem LineBreaksAfter.proper (h : LineBreaksAfter ws row front) :
    ∃ rest, line ws row = front ++ rest ++ "\n" := by
  obtain ⟨before, cell, after, hzip, -, -, rfl⟩ := h
  refine ⟨String.join ((cell :: after).map fun c => pad c.1 c.2), ?_⟩
  rw [line_eq, hzip, List.map_append, String.join_append, ← String.append_assoc]

/-! ## Tables -/

/-- A table that is printed to its end: no cell needs too many blanks. -/
def Printable (t : Table) : Prop := ∀ row ∈ t.lines, LinePrintable t.widths row

instance (t : Table) : Decidable t.Printable :=
  inferInstanceAs (Decidable (∀ row ∈ t.lines, LinePrintable t.widths row))

/-- What stands in a table in front of the first cell that needs too many blanks. -/
def BreaksAfter (t : Table) (front : String) : Prop :=
  ∃ before row after shown, t.lines = before ++ row :: after ∧
    (∀ r ∈ before, LinePrintable t.widths r) ∧ LineBreaksAfter t.widths row shown ∧
      front = String.join (before.map (line t.widths)) ++ shown

theorem print_of_printable (h : t.Printable) : t.print = .complete t.text := by
  rw [print, ← List.append_nil (t.lines.map _), Printed.inOrder_complete fun row hrow =>
    printLine_of_printable (h row hrow)]
  simp [Printed.inOrder, Printed.andThen, text]

theorem print_of_not_printable (h : ¬ t.Printable) :
    ∃ front, t.BreaksAfter front ∧ t.print = .broken front := by
  obtain hall | ⟨before, row, after, hlines, hbefore, hrow⟩ :=
    forall_or_exists_first (LinePrintable t.widths) t.lines
  · exact absurd hall h
  · obtain ⟨shown, hshown, hprint⟩ := printLine_of_not_printable hrow
    refine ⟨_, ⟨before, row, after, shown, hlines, hbefore, hshown, rfl⟩, ?_⟩
    rw [print, ← List.append_nil (t.lines.map _), hlines, Printed.inOrder_broken (fun r hr =>
      printLine_of_printable (hbefore r hr)) hprint]

/-- There is more in a table than what stands in front of a cell. -/
theorem BreaksAfter.proper (h : t.BreaksAfter front) :
    ∃ rest, t.text = front ++ rest ∧ rest ≠ "" := by
  obtain ⟨before, row, after, shown, hlines, -, hline, rfl⟩ := h
  obtain ⟨rest, hrest⟩ := hline.proper
  refine ⟨rest ++ "\n" ++ String.join (after.map (line t.widths)), ?_, by simp⟩
  rw [text, hlines, List.map_append, String.join_append, List.map_cons, String.join_cons, hrest]
  simp [String.append_assoc]

end Table

/-! ## Reports -/

namespace Object

variable {o : Object} {filter : Option (String → Bool)} {withRelocations : Bool} {front : String}

/-- The tables of a report, each with what stands in front of it. -/
def sections (o : Object) (filter : Option (String → Bool)) (withRelocations : Bool) :
    List (String × Table) :=
  [("The list of defined symbols:\n", Report.symbols o filter),
    ("\nThe optional fields of STEXT-typed symbols:\n", Report.functions o filter)] ++
  if withRelocations then [("\nThe list of relocations:\n", Report.relocations o filter)] else []

/-- A report that is printed to its end: no cell needs too many blanks. -/
def Printable (o : Object) (filter : Option (String → Bool)) (withRelocations : Bool) : Prop :=
  ∀ part ∈ o.sections filter withRelocations, part.2.Printable

instance (o : Object) (filter : Option (String → Bool)) (withRelocations : Bool) :
    Decidable (o.Printable filter withRelocations) :=
  inferInstanceAs (Decidable (∀ part ∈ o.sections filter withRelocations, part.2.Printable))

/-- What stands in a report in front of the first cell that needs too many blanks. -/
def BreaksAfter (o : Object) (filter : Option (String → Bool)) (withRelocations : Bool)
    (front : String) : Prop :=
  ∃ before part after shown, o.sections filter withRelocations = before ++ part :: after ∧
    (∀ p ∈ before, p.2.Printable) ∧ part.2.BreaksAfter shown ∧
      front = String.join (before.map fun p => p.1 ++ p.2.text) ++ (part.1 ++ shown)

theorem heading_ne_empty (o : Object) (filter : Option (String → Bool))
    (withRelocations : Bool) : ∀ part ∈ o.sections filter withRelocations, part.1 ≠ "" := by
  cases withRelocations <;> simp [sections]

theorem report_eq (o : Object) (filter : Option (String → Bool)) (withRelocations : Bool) :
    o.report filter withRelocations =
      String.join ((o.sections filter withRelocations).map fun p => p.1 ++ p.2.text) := by
  unfold report sections
  cases withRelocations <;>
    simp only [Bool.false_eq_true, if_true, if_false, List.cons_append, List.nil_append,
      List.map_cons, List.map_nil, String.join_cons, String.join_nil, String.append_assoc,
      String.append_empty]

theorem printReport_eq_inOrder (o : Object) (filter : Option (String → Bool))
    (withRelocations : Bool) :
    o.printReport filter withRelocations = .inOrder ((o.sections filter withRelocations).map
      fun p => (Printed.complete p.1).andThen p.2.print) := by
  cases withRelocations <;>
    simp [printReport, sections, Printed.inOrder, Printed.complete_andThen_assoc]

/-- A report is printed to its end, or what stands in it in front of a cell that needs too many
blanks. -/
theorem printReport_eq (o : Object) (filter : Option (String → Bool)) (withRelocations : Bool) :
    (o.Printable filter withRelocations ∧
      o.printReport filter withRelocations = .complete (o.report filter withRelocations)) ∨
    (¬ o.Printable filter withRelocations ∧ ∃ front,
      o.BreaksAfter filter withRelocations front ∧
        o.printReport filter withRelocations = .broken front) := by
  have hcomplete (p : String × Table) (h : p.2.Printable) :
      (Printed.complete p.1).andThen p.2.print = .complete (p.1 ++ p.2.text) := by
    rw [Table.print_of_printable h]
    rfl
  rw [printReport_eq_inOrder, ← List.append_nil (List.map _ _)]
  obtain hall | ⟨before, part, after, hsections, hbefore, hpart⟩ :=
    forall_or_exists_first (fun p : String × Table => p.2.Printable)
      (o.sections filter withRelocations)
  · refine .inl ⟨hall, ?_⟩
    rw [Printed.inOrder_complete fun p hp => hcomplete p (hall p hp), report_eq]
    simp [Printed.inOrder, Printed.andThen]
  · obtain ⟨shown, hshown, hprint⟩ := Table.print_of_not_printable hpart
    refine .inr ⟨fun hall => hpart (hall part (by simp [hsections])), _,
      ⟨before, part, after, shown, hsections, hbefore, hshown, rfl⟩, ?_⟩
    have hbroken : (Printed.complete part.1).andThen part.2.print = .broken (part.1 ++ shown) := by
      rw [hprint]
      rfl
    rw [hsections, Printed.inOrder_broken (fun p hp => hcomplete p (hbefore p hp)) hbroken]

/-- What stands in front of a cell is neither nothing nor all. -/
theorem BreaksAfter.proper (h : o.BreaksAfter filter withRelocations front) :
    front ≠ "" ∧ ∃ rest, o.report filter withRelocations = front ++ rest ∧ rest ≠ "" := by
  obtain ⟨before, part, after, shown, hsections, -, hbreaks, rfl⟩ := h
  constructor
  · have hheading := heading_ne_empty o filter withRelocations part (by simp [hsections])
    simp [hheading]
  · obtain ⟨rest, htext, hrest⟩ := hbreaks.proper
    refine ⟨rest ++ String.join (after.map fun p => p.1 ++ p.2.text), ?_, by simp [hrest]⟩
    rw [report_eq, hsections, List.map_append, String.join_append, List.map_cons, String.join_cons,
      htext]
    simp [String.append_assoc]

/-- The header of the column of names needs too many blanks if a name is long. -/
theorem not_printable_of_long_name {s : Symbol} (hs : s ∈ o.selected filter)
    (hlong : 65538 < (o.nameAt s.id).utf8ByteSize) (withRelocations : Bool) :
    ¬ o.Printable filter withRelocations := by
  intro hprintable
  have htable : (Report.symbols o filter).Printable :=
    hprintable ("The list of defined symbols:\n", Report.symbols o filter) (by simp [sections])
  have hrow : Report.symbolRow o s (o.referenceAt s.id) ∈ (Report.symbols o filter).lines := by
    rw [Table.lines, Report.rows_symbols]
    exact List.mem_cons_of_mem _ (List.mem_map_of_mem hs)
  -- the name makes the column wide, and the header above it is short
  obtain ⟨width, hwidth, hwide⟩ := Table.fits_widths hrow 6 (o.nameAt s.id)
    (congrArg some (o.name_referenceAt s.id))
  have hcell : ("Name", width) ∈
      (Report.symbols o filter).headers.zip (Report.symbols o filter).widths :=
    List.mem_of_getElem? (List.getElem?_zip_eq_some.2 ⟨rfl, hwidth⟩)
  have hnarrow := htable _ List.mem_cons_self _ hcell
  have hsize : "Name".utf8ByteSize = 4 := by decide
  simp only [Table.Narrow, hsize] at hnarrow
  omega

end Object

end ObjectFile
