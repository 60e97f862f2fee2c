import Mathlib.Algebra.BigOperators.Group.List.Lemmas
import Mathlib.Algebra.GroupWithZero.Nat
import Mathlib.Data.List.DropRight
import ObjectFile.Proofs.Numeral
import ObjectFile.Table
import ObjectFile.Utf8
/-!
# How tables are laid out

The lines of a table may have any numbers of cells.  There is a column for each cell of the
longest line, as wide in bytes as the widest of its cells (`Table.getElem?_widths`), and the cells
of all lines begin at the same bytes (`Table.Aligned`).  So nothing is cut off, and what a table
says can be read off its text: the headers tell how wide the columns are, and between the beginning
of a cell and that of the next one there are only the cell and blanks (`Table.layout`).

* Widths are described step by step, one line after another; what describes them does not speak of
  the order of lines, so their order does not matter.
* A line is seen as blocks of bytes: the first blank, one block for each cell with its blanks, and
  the end of the line.  Where a block begins is the sum of the lengths in front of it.
-/

namespace ObjectFile

/-! ## Bytes of texts -/

namespace Utf8

theorem encode_append (s t : String) : encode (s ++ t) = encode s ++ encode t := by
  simp [encode]

theorem encode_join (texts : List String) : encode (String.join texts) = texts.flatMap encode := by
  rw [encode, String.toList_join, List.flatMap_assoc]
  rfl

theorem encode_injective : Function.Injective encode := fun s t h => by
  rw [← decode_encode s, h, decode_encode]

theorem length_encode (s : String) : (encode s).length = s.utf8ByteSize := by
  rw [← String.size_toByteArray, ← String.utf8Encode_toList, List.utf8Encode,
    List.size_toByteArray, encode]

end Utf8

namespace Table

variable {t u : Table} {ws ws' : List Nat} {row row' : List String}
  {lines lines' : List (List String)}

/-! ## Widths -/

/-- The sizes of the cells in a column of some lines. -/
def column (lines : List (List String)) (i : Nat) : List Nat :=
  lines.filterMap fun row => row[i]?.map String.utf8ByteSize

theorem mem_column_iff {i n : Nat} :
    n ∈ column lines i ↔ ∃ row ∈ lines, ∃ cell, row[i]? = some cell ∧ cell.utf8ByteSize = n := by
  simp only [column, List.mem_filterMap, Option.map_eq_some_iff]

theorem getElem?_widen (ws : List Nat) (row : List String) (i : Nat) :
    (widen ws row)[i]? = Option.merge max ws[i]? (row[i]?.map String.utf8ByteSize) := by
  fun_induction widen ws row generalizing i with
  | case1 ws => simp
  | case2 row => simp
  | case3 w ws cell row ih =>
    cases i with
    | zero => rfl
    | succ i => simpa using ih i

theorem length_widen (ws : List Nat) (row : List String) :
    (widen ws row).length = max ws.length row.length := by
  fun_induction widen ws row with
  | case1 ws => simp
  | case2 row => simp
  | case3 w ws cell row ih =>
    rw [List.length_cons, ih, List.length_cons, List.length_cons]
    omega

theorem max?_column_cons (row : List String) (lines : List (List String)) (i : Nat) :
    (column (row :: lines) i).max? =
      Option.merge max (row[i]?.map String.utf8ByteSize) (column lines i).max? := by
  cases hcell : row[i]? with
  | none => simp [column, hcell]
  | some cell =>
    rw [column, List.filterMap_cons, hcell, Option.map_some, List.max?_cons, ← column]
    cases (column lines i).max? <;> rfl

/-- Widths that have been widened by some lines, whatever they were before. -/
theorem getElem?_foldl_widen (ws : List Nat) (lines : List (List String)) (i : Nat) :
    (lines.foldl widen ws)[i]? = Option.merge max ws[i]? (column lines i).max? := by
  induction lines generalizing ws with
  | nil => simp [column]
  | cons row lines ih =>
    rw [List.foldl_cons, ih, getElem?_widen, max?_column_cons, (Option.associative_merge max).assoc]

theorem length_foldl_widen (ws : List Nat) (lines : List (List String)) :
    (lines.foldl widen ws).length = (lines.map List.length).foldl max ws.length := by
  induction lines generalizing ws with
  | nil => rfl
  | cons row lines ih => rw [List.foldl_cons, ih, length_widen, List.map_cons, List.foldl_cons]

/-- A column is as wide as its widest cell, and there is none without a cell. -/
theorem getElem?_widths (t : Table) (i : Nat) : t.widths[i]? = (column t.lines i).max? := by
  rw [widths, getElem?_foldl_widen, List.getElem?_nil, Option.merge_none_left]

/-- There are as many columns as there are cells in the longest line. -/
theorem max?_length_lines (t : Table) : (t.lines.map List.length).max? = some t.widths.length := by
  rw [widths, length_foldl_widen, lines, List.map_cons, List.max?_cons', List.foldl_cons,
    List.length_nil, Nat.zero_max]

/-- The order of lines, and how often there is one, does not matter. -/
theorem widths_congr (h : ∀ row, row ∈ u.lines ↔ row ∈ t.lines) : u.widths = t.widths := by
  refine List.ext_getElem? fun i => ?_
  rw [getElem?_widths, getElem?_widths]
  ext n
  simp only [List.max?_eq_some_iff, mem_column_iff, h]

/-- The cells of a line have columns, and these are wide enough. -/
def Fits (ws : List Nat) (row : List String) : Prop :=
  ∀ (i : Nat) cell, row[i]? = some cell → ∃ w, ws[i]? = some w ∧ cell.utf8ByteSize ≤ w

theorem fits_widths (h : row ∈ t.lines) : Fits t.widths row := by
  intro i cell hcell
  have hmem : cell.utf8ByteSize ∈ column t.lines i := mem_column_iff.2 ⟨row, h, cell, hcell, rfl⟩
  obtain ⟨w, hw⟩ := Option.isSome_iff_exists.1 (List.isSome_max?_of_mem hmem)
  refine ⟨w, ?_, (List.max?_eq_some_iff.1 hw).2 _ hmem⟩
  rw [getElem?_widths, hw]

theorem Fits.length_le (h : Fits ws row) : row.length ≤ ws.length := by
  by_contra hlt
  rw [Nat.not_le] at hlt
  obtain ⟨w, hw, -⟩ := h ws.length _ (List.getElem?_eq_getElem hlt)
  simp at hw

theorem fits_cons_iff {w : Nat} {cell : String} :
    Fits (w :: ws) (cell :: row) ↔ cell.utf8ByteSize ≤ w ∧ Fits ws row := by
  constructor
  · intro h
    refine ⟨?_, fun i => h (i + 1)⟩
    obtain ⟨_, hw, hle⟩ := h 0 cell rfl
    cases hw
    exact hle
  · rintro ⟨hle, h⟩ i c hc
    cases i with
    | zero =>
      cases hc
      exact ⟨w, rfl, hle⟩
    | succ i => exact h i c hc

/-! ## Positions -/

/-- The byte at which the cell of a column begins: behind the first blank and the columns in front
of it, each with one byte more than it is wide. -/
def start (ws : List Nat) (i : Nat) : Nat := 1 + ((ws.take i).map (· + 1)).sum

/-- The bytes of a line whose cells stand at the beginnings of their columns. -/
structure Aligned (ws : List Nat) (row : List String) (bytes : List UInt8) : Prop where
  /-- A blank comes first. -/
  begins : bytes.take (start ws 0) = [0x20]
  /-- From the beginning of a cell to that of the next one there are the cell, which is no wider
  than its column, and then blanks. -/
  cells : ∀ (i : Nat) cell, row[i]? = some cell → ∃ w, ws[i]? = some w ∧ cell.utf8ByteSize ≤ w ∧
    (bytes.take (start ws (i + 1))).drop (start ws i) =
      Utf8.encode cell ++ List.replicate (w - cell.utf8ByteSize + 1) 0x20
  /-- The line ends behind its last cell. -/
  ends : bytes.drop (start ws row.length) = [0x0A]

theorem encode_blanks (n : Nat) : Utf8.encode (blanks n) = List.replicate n 0x20 := by
  rw [blanks, Utf8.encode, String.toList_ofList]
  induction n with
  | zero => rfl
  | succ n ih =>
    rw [List.replicate_succ, List.flatMap_cons, ih]
    rfl

theorem length_encode_pad {cell : String} {w : Nat} (h : cell.utf8ByteSize ≤ w) :
    (Utf8.encode (pad cell w)).length = w + 1 := by
  rw [pad, Utf8.encode_append, List.length_append, Utf8.length_encode, encode_blanks,
    List.length_replicate]
  omega

/-- A line as blocks of bytes. -/
def blocks (ws : List Nat) (row : List String) : List (List UInt8) :=
  [0x20] :: (List.zipWith pad row ws).map Utf8.encode ++ [[0x0A]]

theorem encode_line (ws : List Nat) (row : List String) :
    Utf8.encode (line ws row) = (blocks ws row).flatten := by
  rw [line, Utf8.encode_append, Utf8.encode_append, Utf8.encode_join, blocks,
    List.flatten_append, List.flatten_cons, List.flatMap_def]
  rfl

theorem map_length_encode_pad (h : Fits ws row) :
    (List.zipWith pad row ws).map (fun s => (Utf8.encode s).length) =
      (ws.take row.length).map (· + 1) := by
  induction row generalizing ws with
  | nil => simp
  | cons cell row ih =>
    cases ws with
    | nil => exact absurd h.length_le (by simp)
    | cons w ws =>
      obtain ⟨hle, hrest⟩ := fits_cons_iff.1 h
      rw [List.zipWith_cons_cons, List.map_cons, ih hrest, length_encode_pad hle,
        List.length_cons, List.take_succ_cons, List.map_cons]

/-- The lengths of the blocks in front of a cell add up to where it begins. -/
theorem sum_take_length_blocks (h : Fits ws row) {i : Nat} (hi : i ≤ row.length) :
    (((blocks ws row).map List.length).take (i + 1)).sum = start ws i := by
  have hlengths : (blocks ws row).map List.length =
      1 :: ((ws.take row.length).map (· + 1) ++ [1]) := by
    rw [← map_length_encode_pad h, blocks, List.map_append, List.map_cons, List.map_map]
    rfl
  have hle : i ≤ ((ws.take row.length).map (· + 1)).length := by
    rw [List.length_map, List.length_take, Nat.min_eq_left h.length_le]
    exact hi
  rw [hlengths, List.take_succ_cons, List.take_append_of_le_length hle, ← List.map_take,
    List.take_take, Nat.min_eq_left hi, List.sum_cons, start]

theorem getElem?_blocks {i : Nat} {cell : String} {w : Nat} (hcell : row[i]? = some cell)
    (hw : ws[i]? = some w) : (blocks ws row)[i + 1]? = some (Utf8.encode (pad cell w)) := by
  have hpad :
      ((List.zipWith pad row ws).map Utf8.encode)[i]? = some (Utf8.encode (pad cell w)) := by
    rw [List.getElem?_map, List.getElem?_zipWith, hcell, hw]
    rfl
  rw [blocks, List.cons_append, List.getElem?_cons_succ,
    List.getElem?_append_left (List.getElem?_eq_some_iff.1 hpad).1, hpad]

theorem drop_blocks (h : Fits ws row) : (blocks ws row).drop (row.length + 1) = [[0x0A]] := by
  refine List.drop_left' ?_
  rw [List.length_cons, List.length_map, List.length_zipWith, Nat.min_eq_left h.length_le]

/-- The cells of a line that has columns wide enough stand at the beginnings of these. -/
theorem aligned_line (h : Fits ws row) : Aligned ws row (Utf8.encode (line ws row)) := by
  rw [encode_line]
  constructor
  · have hzero : start ws 0 = 1 := rfl
    rw [hzero]
    rfl
  · intro i cell hcell
    obtain ⟨w, hw, hle⟩ := h i cell hcell
    have hi : i < row.length := (List.getElem?_eq_some_iff.1 hcell).1
    obtain ⟨hblocks, hblock⟩ := List.getElem?_eq_some_iff.1 (getElem?_blocks hcell hw)
    refine ⟨w, hw, hle, ?_⟩
    rw [← sum_take_length_blocks h hi, ← sum_take_length_blocks h (Nat.le_of_lt hi),
      List.drop_take_succ_flatten_eq_getElem _ _ hblocks, hblock, pad, Utf8.encode_append,
      encode_blanks]
  · rw [← sum_take_length_blocks h (Nat.le_refl _), List.drop_sum_flatten, drop_blocks h]
    rfl

/-- Lines with as many cells take as many bytes. -/
theorem Aligned.length_eq {bytes : List UInt8} (h : Aligned ws row bytes) :
    bytes.length = start ws row.length + 1 := by
  have hends := congrArg List.length h.ends
  rw [List.length_drop, List.length_singleton] at hends
  omega

/-! ## Reading a table off its text -/

theorem rdropWhile_append_replicate {a : Char} {l : List Char} (n : Nat)
    (h : l.getLast? ≠ some a) : (l ++ List.replicate n a).rdropWhile (· == a) = l := by
  induction n with
  | zero =>
    rw [List.replicate_zero, List.append_nil, List.rdropWhile_eq_self_iff]
    intro hne hlast
    rw [beq_iff_eq] at hlast
    exact h (by rw [List.getLast?_eq_some_getLast hne, hlast])
  | succ n ih =>
    have hlast := List.rdropWhile_concat_pos (· == a) (l ++ List.replicate n a) a
      (beq_self_eq_true a)
    rw [List.replicate_succ', ← List.append_assoc, hlast, ih]

/-- A cell that does not end in a blank is what is left without the blanks behind it. -/
theorem blanks_inj {s s' : String} {n n' : Nat} (hs : s.toList.getLast? ≠ some ' ')
    (hs' : s'.toList.getLast? ≠ some ' ') (h : s ++ blanks n = s' ++ blanks n') : s = s' := by
  have hchars := congrArg (fun text => text.toList.rdropWhile (· == ' ')) h
  simp only [String.toList_append, blanks, String.toList_ofList,
    rdropWhile_append_replicate _ hs, rdropWhile_append_replicate _ hs'] at hchars
  exact String.toList_injective hchars

/-- The cells of a line are read off its bytes by where their columns begin. -/
theorem Aligned.row_inj {bytes : List UInt8} (h : Aligned ws row bytes)
    (h' : Aligned ws row' bytes) (hlength : row.length = row'.length)
    (hrow : ∀ cell ∈ row, cell.toList.getLast? ≠ some ' ')
    (hrow' : ∀ cell ∈ row', cell.toList.getLast? ≠ some ' ') : row = row' := by
  refine List.ext_getElem hlength fun i hi hi' => ?_
  obtain ⟨w, -, -, hcell⟩ := h.cells i _ (List.getElem?_eq_getElem hi)
  obtain ⟨w', -, -, hcell'⟩ := h'.cells i _ (List.getElem?_eq_getElem hi')
  rw [hcell, ← encode_blanks, ← encode_blanks, ← Utf8.encode_append, ← Utf8.encode_append]
    at hcell'
  exact blanks_inj (hrow _ (List.getElem_mem hi)) (hrow' _ (List.getElem_mem hi'))
    (Utf8.encode_injective hcell')

/-- What stands in a line in front of its end. -/
def body (ws : List Nat) (row : List String) : List Char :=
  ' ' :: (List.zipWith pad row ws).flatMap String.toList

theorem toList_line (ws : List Nat) (row : List String) :
    (line ws row).toList = body ws row ++ ['\n'] := by
  rw [line, String.toList_append, String.toList_append, String.toList_join]
  rfl

/-- Lines of as many cells in the same columns are told apart by their texts. -/
theorem body_inj (hrow : Fits ws row) (hrow' : Fits ws row') (hlength : row.length = row'.length)
    (hblanks : ∀ cell ∈ row, cell.toList.getLast? ≠ some ' ')
    (hblanks' : ∀ cell ∈ row', cell.toList.getLast? ≠ some ' ') (h : body ws row = body ws row') :
    row = row' := by
  have hline : line ws row = line ws row' := by
    apply String.toList_injective
    rw [toList_line, toList_line, h]
  have haligned := aligned_line hrow'
  rw [← hline] at haligned
  exact (aligned_line hrow).row_inj haligned hlength hblanks hblanks'

theorem toList_text (t : Table) :
    t.text.toList = (t.lines.map (body t.widths)).flatMap (· ++ ['\n']) := by
  rw [text, String.toList_join, List.flatMap_map, List.flatMap_map]
  simp only [toList_line]

theorem newline_notMem_body (h : ∀ cell ∈ row, '\n' ∉ cell.toList) : '\n' ∉ body ws row := by
  rw [body, List.mem_cons, not_or]
  refine ⟨by decide, fun hmem => ?_⟩
  obtain ⟨s, hs, hnewline⟩ := List.mem_flatMap.1 hmem
  rw [← List.map_uncurry_zip_eq_zipWith] at hs
  obtain ⟨⟨cell, w⟩, hcell, rfl⟩ := List.mem_map.1 hs
  rw [Function.uncurry_apply_pair, pad, blanks, String.toList_append, String.toList_ofList]
    at hnewline
  rcases List.mem_append.1 hnewline with hnewline | hnewline
  · exact h cell (List.of_mem_zip hcell).1 hnewline
  · exact absurd (List.eq_of_mem_replicate hnewline) (by decide)

/-- Texts are cut at the ends of their lines. -/
theorem flatMap_append_singleton_inj {a : Char} {ls ms : List (List Char)} (hl : ∀ l ∈ ls, a ∉ l)
    (hm : ∀ m ∈ ms, a ∉ m) (h : ls.flatMap (· ++ [a]) = ms.flatMap (· ++ [a])) : ls = ms := by
  induction ls generalizing ms with
  | nil =>
    cases ms with
    | nil => rfl
    | cons m ms => simp at h
  | cons l ls ih =>
    cases ms with
    | nil => simp at h
    | cons m ms =>
      rw [List.flatMap_cons, List.flatMap_cons, List.append_assoc, List.append_assoc] at h
      rw [List.forall_mem_cons] at hl hm
      obtain ⟨rfl, hrest⟩ := (append_cons_inj hl.1 hm.1).1 h
      rw [ih hl.2 hm.2 hrest]

theorem replicate_append_inj {a : Char} {x y : List Char} {m n : Nat} (hx : x.head? ≠ some a)
    (hy : y.head? ≠ some a) (h : List.replicate m a ++ x = List.replicate n a ++ y) :
    m = n ∧ x = y := by
  induction m generalizing n with
  | zero =>
    cases n with
    | zero => exact ⟨rfl, h⟩
    | succ n =>
      rw [List.replicate_zero, List.nil_append] at h
      exact absurd (congrArg List.head? h) hx
  | succ m ih =>
    cases n with
    | zero =>
      rw [List.replicate_zero, List.nil_append] at h
      exact absurd (congrArg List.head? h).symm hy
    | succ n =>
      obtain ⟨hmn, hxy⟩ := ih (List.cons.inj h).2
      exact ⟨congrArg (· + 1) hmn, hxy⟩

/-- A text that can be told from others in a line: it has no blanks and no end of a line in it. -/
def IsWord (s : String) : Prop := s ≠ "" ∧ ' ' ∉ s.toList ∧ '\n' ∉ s.toList

theorem head?_cells_ne (headers : List String) (h : ∀ s ∈ headers, IsWord s) (ws : List Nat) :
    ((List.zipWith pad headers ws).flatMap String.toList ++ ['\n']).head? ≠ some ' ' := by
  cases headers with
  | nil => simp
  | cons s headers =>
    cases ws with
    | nil => simp
    | cons w ws =>
      obtain ⟨hne, hblank, -⟩ := h s List.mem_cons_self
      cases hs : s.toList with
      | nil => exact absurd (String.toList_eq_nil_iff.1 hs) hne
      | cons c cs =>
        rw [List.zipWith_cons_cons, List.flatMap_cons, pad, String.toList_append, hs]
        rintro heq
        cases heq
        exact hblank (hs ▸ List.mem_cons_self)

/-- The headers tell how wide the columns are: the blanks between two of them can be counted. -/
theorem widths_inj (headers : List String) (h : ∀ s ∈ headers, IsWord s)
    (hws : ws.length = headers.length) (hws' : ws'.length = headers.length)
    (hfits : Fits ws headers) (hfits' : Fits ws' headers)
    (heq : (List.zipWith pad headers ws).flatMap String.toList ++ ['\n'] =
      (List.zipWith pad headers ws').flatMap String.toList ++ ['\n']) : ws = ws' := by
  induction headers generalizing ws ws' with
  | nil => rw [List.length_eq_zero_iff.1 hws, List.length_eq_zero_iff.1 hws']
  | cons s headers ih =>
    obtain ⟨w, ws, rfl⟩ := List.exists_cons_of_length_eq_add_one hws
    obtain ⟨w', ws', rfl⟩ := List.exists_cons_of_length_eq_add_one hws'
    rw [fits_cons_iff] at hfits hfits'
    rw [List.forall_mem_cons] at h
    simp only [List.zipWith_cons_cons, List.flatMap_cons, pad, blanks, String.toList_append,
      String.toList_ofList, List.append_assoc, List.append_cancel_left_eq] at heq
    obtain ⟨hblanks, hrest⟩ := replicate_append_inj (head?_cells_ne headers h.2 ws)
      (head?_cells_ne headers h.2 ws') heq
    have hw : w = w' := by omega
    rw [hw, ih h.2 (Nat.succ.inj hws) (Nat.succ.inj hws') hfits.2 hfits'.2 hrest]

/-- A table with a cell for every header in every row whose text can be read: the headers are
words, and no cell has the end of a line in it or ends in a blank. -/
structure Legible (t : Table) : Prop where
  headers : ∀ s ∈ t.headers, IsWord s
  rows : ∀ row ∈ t.rows, row.length = t.headers.length
  newlines : ∀ row ∈ t.rows, ∀ cell ∈ row, '\n' ∉ cell.toList
  blanks : ∀ row ∈ t.rows, ∀ cell ∈ row, cell.toList.getLast? ≠ some ' '

namespace Legible

theorem length_widths (h : t.Legible) : t.widths.length = t.headers.length := by
  obtain ⟨row, hrow, hlength⟩ :=
    List.mem_map.1 (List.max?_eq_some_iff.1 (max?_length_lines t)).1
  rcases List.mem_cons.1 hrow with rfl | hrow
  · exact hlength.symm
  · rw [← hlength, h.rows row hrow]

theorem newline_notMem (h : t.Legible) : ∀ l ∈ t.lines.map (body t.widths), '\n' ∉ l := by
  intro l hl
  obtain ⟨row, hrow, rfl⟩ := List.mem_map.1 hl
  apply newline_notMem_body
  rcases List.mem_cons.1 hrow with rfl | hrow
  · exact fun s hs => (h.headers s hs).2.2
  · exact h.newlines row hrow

/-- The text of a table tells its lines, the first of these how wide the columns are, and the
others what their cells are. -/
theorem rows_inj (ht : t.Legible) (hu : u.Legible) (hheaders : u.headers = t.headers)
    (htext : u.text = t.text) : u.rows = t.rows := by
  have hlines : u.lines.map (body u.widths) = t.lines.map (body t.widths) := by
    apply flatMap_append_singleton_inj hu.newline_notMem ht.newline_notMem
    rw [← toList_text, ← toList_text, htext]
  rw [lines, lines, List.map_cons, List.map_cons, List.cons.injEq, hheaders] at hlines
  obtain ⟨hfirst, hrows⟩ := hlines
  have hwidths : u.widths = t.widths := by
    have hfits : Fits u.widths t.headers := hheaders ▸ fits_widths List.mem_cons_self
    have hlength : u.widths.length = t.headers.length := by rw [hu.length_widths, hheaders]
    apply widths_inj t.headers ht.headers hlength ht.length_widths hfits
      (fits_widths List.mem_cons_self)
    rw [(List.cons.inj hfirst).2]
  rw [hwidths] at hrows
  have hlength : u.rows.length = t.rows.length := by simpa using congrArg List.length hrows
  refine List.ext_getElem hlength fun i hi hi' => ?_
  have hmem : u.rows[i] ∈ u.rows := List.getElem_mem hi
  have hmem' : t.rows[i] ∈ t.rows := List.getElem_mem hi'
  apply body_inj (hwidths ▸ fits_widths (List.mem_cons_of_mem _ hmem))
    (fits_widths (List.mem_cons_of_mem _ hmem')) _ (hu.blanks _ hmem) (ht.blanks _ hmem')
  · simpa [hi, hi'] using congrArg (·[i]?) hrows
  · rw [hu.rows _ hmem, ht.rows _ hmem', hheaders]

end Legible

/-- Every table can be laid out, and nothing is lost.  It has as many columns as its longest line
has cells, each as wide as the widest cell in it, whatever the order of lines.  Its text is that of
its lines one after another, and in all of them the cells begin where the columns do, so lines with
as many cells take as many bytes.

The rows can be read off the text if it is that of a legible table: two of them with the same
headers and the same text have the same rows. -/
theorem layout (t : Table) :
    (t.lines.map List.length).max? = some t.widths.length ∧
    (∀ i : Nat, t.widths[i]? = (column t.lines i).max?) ∧
    (∀ u : Table, (∀ row, row ∈ u.lines ↔ row ∈ t.lines) → u.widths = t.widths) ∧
    Utf8.encode t.text = t.lines.flatMap (fun row => Utf8.encode (line t.widths row)) ∧
    (∀ row ∈ t.lines, Aligned t.widths row (Utf8.encode (line t.widths row))) ∧
    (∀ row ∈ t.lines, ∀ row' ∈ t.lines, row.length = row'.length →
      (line t.widths row).utf8ByteSize = (line t.widths row').utf8ByteSize) ∧
    ∀ u : Table, t.Legible → u.Legible → u.headers = t.headers → u.text = t.text →
      u.rows = t.rows := by
  refine ⟨max?_length_lines t, getElem?_widths t, fun u => widths_congr, ?_,
    fun row h => aligned_line (fits_widths h), fun row h row' h' hlength => ?_,
    fun u ht hu => ht.rows_inj hu⟩
  · rw [text, Utf8.encode_join, List.flatMap_map]
  · rw [← Utf8.length_encode, ← Utf8.length_encode, (aligned_line (fits_widths h)).length_eq,
      (aligned_line (fits_widths h')).length_eq, hlength]

/-- Lines with fewer and with more cells than there are headers, and a table with characters of
two bytes, an empty cell and one with a blank in it, which can be read off its text. -/
theorem layout_ragged :
    let t : Table := ⟨["Name", "N"], [["·a·"], ["x", "100", "y"]]⟩
    let u : Table := ⟨["Name", "N"], [["é", "100"], ["", "x y"]]⟩
    (["x", "100", "y"] ∈ t.lines ∧ t.widths = [5, 3, 1] ∧
      ∃ w, t.widths[1]? = some w ∧ "100".utf8ByteSize ≤ w ∧
        ((Utf8.encode (line t.widths ["x", "100", "y"])).take (start t.widths 2)).drop
          (start t.widths 1) = [0x31, 0x30, 0x30, 0x20]) ∧
    u.Legible ∧ u.text = " Name N   \n é   100 \n      x y \n" ∧
      u.rows = [["é", "100"], ["", "x y"]] := by
  intro t u
  obtain ⟨-, -, -, -, haligned, -, -⟩ := layout t
  have hrow : ["x", "100", "y"] ∈ t.lines := by decide
  have hwidths : t.widths = [5, 3, 1] := by decide +kernel
  obtain ⟨w, hw, hle, hcell⟩ := (haligned _ hrow).cells 1 "100" rfl
  have hw3 : w = 3 := by
    rw [hwidths] at hw
    cases hw
    rfl
  have hu : u.Legible := by
    constructor
    · unfold IsWord
      decide +kernel
    all_goals decide +kernel
  obtain ⟨-, -, -, -, -, -, hread⟩ := layout u
  refine ⟨⟨hrow, hwidths, w, hw, hle, hcell.trans ?_⟩, hu, by decide +kernel,
    hread u hu hu rfl rfl⟩
  rw [hw3]
  decide +kernel

end Table

end ObjectFile
