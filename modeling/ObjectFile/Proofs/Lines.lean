import ObjectFile.Journal
/-!
# The lines of the log

A log is read line by line, so what is said of it is said of its lines, each of which is written
out here: the level, the part of the program that tells it, and the wording, in which numbers are
those of the library.  The line of an entry is one of these (`Journal.line_reference`,
`Journal.line_segment`, `Journal.line_symbol`, `Journal.line_symbols` and, for the others,
`Journal.line_eq_debugLine`).

Lines of references, lines of symbols and all other lines are told apart by how they begin
(`Journal.Heads`).
-/

namespace ObjectFile

theorem Numeral.decimal_eq (n : Int) : decimal n = toString n := by
  cases n with
  | ofNat n => rfl
  | negSucc n =>
    rw [Int.toString_eq_repr, Int.repr_eq_if, if_neg (by omega), decimal, if_pos (by omega)]
    rfl

namespace Journal

/-- A line of the decoder at the level `debug`. -/
def debugLine (text : String) : String := "DEBUG [goobj_reader::decoder] " ++ text

/-- A line of the decoder at the level `trace`. -/
def traceLine (text : String) : String := "TRACE [goobj_reader::decoder] " ++ text

/-- The line of a reference in front of which there are so many others. -/
def referenceLine (before : Nat) (r : Reference) : String :=
  traceLine ("reference " ++ toString (before + 1) ++ ": " ++ r.name ++ " v" ++
    toString r.version.toInt)

/-- The line of the front of a data segment. -/
def segmentLine (head : SegmentHead) : String :=
  debugLine ("data segment: " ++ toString head.size ++ " bytes, sizing hints [" ++
    String.intercalate ", " ([head.hints.relocations, head.hints.tables, head.hints.locals,
      head.hints.functionData, head.hints.files].map (toString ·.toInt)) ++ "]")

/-- The line of a symbol.  Its size is shown as a word. -/
def symbolLine (s : Symbol) : String :=
  traceLine ("symbol " ++ toString s.id.toInt ++ " " ++ s.kind.name ++
    " size=" ++ ("0x" ++ String.ofList (Nat.toDigits 16 s.size.toUInt64.toNat)) ++
    " data=DataAddr \x7b size: " ++ toString s.block.size.toInt ++
    ", offset: " ++ toString s.block.offset.toInt ++
    " \x7d relocs=" ++ toString s.relocations.length)

/-- A line begins with a heading. -/
def Heads (heading line : String) : Prop := heading.toList <+: line.toList

instance (heading line : String) : Decidable (Heads heading line) :=
  inferInstanceAs (Decidable (_ <+: _))

section Line

variable {e : Entry} (htarget : e.target = "goobj_reader::decoder")

include htarget

theorem line_eq_debugLine (hlevel : e.level = .debug) : e.line = debugLine e.message := by
  have hfront : "DEBUG" ++ " [" ++ "goobj_reader::decoder" ++ "] " =
      "DEBUG [goobj_reader::decoder] " := by decide +kernel
  unfold debugLine
  rw [Entry.line, hlevel, htarget, Level.name, hfront]

theorem line_eq_traceLine (hlevel : e.level = .trace) : e.line = traceLine e.message := by
  have hfront : "TRACE" ++ " [" ++ "goobj_reader::decoder" ++ "] " =
      "TRACE [goobj_reader::decoder] " := by decide +kernel
  unfold traceLine
  rw [Entry.line, hlevel, htarget, Level.name, hfront]

end Line

theorem line_reference (before : Nat) (r : Reference) :
    (Entry.reference (before + 1) r).line = referenceLine before r := by
  rw [line_eq_traceLine rfl rfl, referenceLine, ← Numeral.decimal_eq]
  rfl

theorem line_segment (head : SegmentHead) : (Entry.segment head).line = segmentLine head := by
  rw [line_eq_debugLine rfl rfl, segmentLine]
  simp only [← Numeral.decimal_eq]
  rfl

theorem line_symbol (s : Symbol) : (Entry.symbol s).line = symbolLine s := by
  rw [line_eq_traceLine rfl rfl, symbolLine, ← Numeral.decimal_eq, ← Numeral.decimal_eq,
    ← Numeral.decimal_eq]
  rfl

theorem line_symbols (count : Nat) (stop : Int64) :
    (Entry.symbols count stop).line = debugLine ("read " ++ toString count ++
      " symbols covering " ++ toString stop.toInt ++ " data bytes") := by
  rw [line_eq_debugLine rfl rfl, ← Numeral.decimal_eq]
  rfl

/-! ## Headings -/

theorem heads_debugLine (text : String) :
    Heads "DEBUG [goobj_reader::decoder] " (debugLine text) := by
  unfold Heads debugLine
  rw [String.toList_append]
  exact List.prefix_append _ _

theorem heads_referenceLine (before : Nat) (r : Reference) :
    Heads "TRACE [goobj_reader::decoder] reference " (referenceLine before r) := by
  have hheading : "TRACE [goobj_reader::decoder] reference ".toList =
      "TRACE [goobj_reader::decoder] ".toList ++ "reference ".toList := by decide +kernel
  unfold Heads referenceLine traceLine
  simp only [hheading, String.toList_append, List.append_assoc, List.prefix_append_right_inj]
  exact List.prefix_append _ _

theorem heads_symbolLine (s : Symbol) :
    Heads "TRACE [goobj_reader::decoder] symbol " (symbolLine s) := by
  have hheading : "TRACE [goobj_reader::decoder] symbol ".toList =
      "TRACE [goobj_reader::decoder] ".toList ++ "symbol ".toList := by decide +kernel
  unfold Heads symbolLine traceLine
  simp only [hheading, String.toList_append, List.append_assoc, List.prefix_append_right_inj]
  exact List.prefix_append _ _

/-- No line has two headings of which neither begins with the other. -/
theorem Heads.absurd {heading other line : String} (h : Heads heading line)
    (hother : Heads other line)
    (hne : ¬ heading.toList <+: other.toList ∧ ¬ other.toList <+: heading.toList) : False :=
  (List.prefix_or_prefix_of_prefix h hother).elim hne.1 hne.2

end Journal

end ObjectFile
