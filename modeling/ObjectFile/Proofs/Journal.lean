import ObjectFile.Command
import ObjectFile.Proofs.Continuation
import ObjectFile.Proofs.Lines
import ObjectFile.Proofs.Sections
import ObjectFile.Proofs.Stream
/-!
# What the log tells

The log of a whole file is told step by step, in the order of the steps, and which lines a step
tells follows from the bytes in front of which it stands (`Session.Step.Tells`):

* a step that reads no records tells one line, just if it succeeds, but for the data segment,
  whose line is told as soon as its front has been read;
* a table tells a line for each record that leads the bytes it comes to, in their order, and one
  more line just if it succeeds.

A step that is not reached tells nothing.  Together with what becomes of the journal when there
are more bytes (`Object.journal_prefix`) this is `Object.log_tells`.

Steps make entries, and the log consists of their lines.  The entries are only what steps are
compared by; what the log is said to tell are lines.
-/

namespace ObjectFile

theorem SymbolRecord.length_placeAll (start : Int64) (rs : List SymbolRecord) :
    (placeAll start rs).length = rs.length := by
  induction rs generalizing start with
  | nil => rfl
  | cons r rs ih => rw [placeAll, List.length_cons, List.length_cons, ih]

namespace Session

variable {α : Type} {s u : List UInt8} {st : Step}

/-! ## Steps of a whole file -/

/-- The steps in front of a step when a whole file is read. -/
def Step.before (st : Step) : List Step := pipeline.takeWhile (· ≠ st)

/-- The session that comes to a step when the bytes `s` are read. -/
def comingTo (s : List UInt8) (st : Step) : Session := ((ofEvents [.data s]).course st.before).2

/-- The session behind a step when the bytes `s` are read. -/
def behind (s : List UInt8) (st : Step) : Session := (step st (comingTo s st)).2

/-- The step succeeds when the bytes `s` are read. -/
def Succeeds (s : List UInt8) (st : Step) : Prop := (step st (comingTo s st)).1 = .ok ()

instance (s : List UInt8) (st : Step) : Decidable (Succeeds s st) :=
  inferInstanceAs (Decidable (_ = _))

/-- In front of the bytes `u`, which are the last ones of `s`, all steps before have found
something. -/
def Reaches (s : List UInt8) (st : Step) (u : List UInt8) : Prop :=
  ∃ w findings, s = w ++ u ∧ Finds st.before w findings

/-- A step is reached just if there is no fault by then, and what is left is to be read. -/
theorem reaches_iff : Reaches s st u ↔
    (comingTo s st).reader.failure = none ∧
      (comingTo s st).reader.input.signals = u.map .byte := by
  constructor
  · rintro ⟨w, findings, rfl, hfinds⟩
    have hstart : (ofEvents [.data (w ++ u)]).Stands {} 0 (w.map .byte ++ u.map .byte) :=
      ⟨⟨rfl, rfl, by rw [← List.map_append]; exact Input.signals_ofBytes _⟩, rfl⟩
    have hend := (hstart.course hfinds).reader
    exact ⟨hend.failure_eq, hend.signals_eq⟩
  · rintro ⟨hfailure, hsignals⟩
    obtain ⟨w, findings, hw, hfinds, -⟩ := finds_of_course hfailure
    refine ⟨w, findings, ?_, hfinds⟩
    have hs : (ofEvents [.data s]).reader.input.signals = s.map .byte := Input.signals_ofBytes s
    rw [← comingTo, hsignals, hs, ← List.map_append] at hw
    exact (List.map_inj_right fun _ _ => Signal.byte.inj).1 hw

theorem exists_reaches (h : (comingTo s st).reader.failure = none) : ∃ u, Reaches s st u := by
  obtain ⟨w, findings, hw, hfinds, -⟩ := finds_of_course h
  have hs : (ofEvents [.data s]).reader.input.signals = s.map .byte ++ [] := by
    rw [List.append_nil]
    exact Input.signals_ofBytes s
  have hlength := congrArg List.length (hs.symm.trans hw)
  obtain ⟨u, hu, -⟩ := Signal.split_at_length (hw.symm.trans hs) (by simp at hlength; omega)
  exact ⟨u, w, findings, hu, hfinds⟩

/-! ## What is told -/

/-- What is told just if the step succeeds. -/
def summary {β : Type} (s : List UInt8) (st : Step) (told : β) : List β :=
  if Succeeds s st then [told] else []

theorem summary_of_ok (h : (step st (comingTo s st)).1 = .ok ()) (entry : Journal.Entry) :
    summary s st entry = [entry] := if_pos h

theorem summary_of_error {fault : Fault} (h : (step st (comingTo s st)).1 = .error fault)
    (entry : Journal.Entry) : summary s st entry = [] := by
  refine if_neg fun hsucceeds => ?_
  rw [Succeeds, h] at hsucceeds
  cases hsucceeds

/-- The records are all that lead the bytes in front of which the step stands, and none if the step
is not reached. -/
def FindsAll (record : List UInt8 → α → Prop) (s : List UInt8) (st : Step) (found : List α) :
    Prop :=
  (∃ u v, Reaches s st u ∧ Grammar.Leading (Parser.Marked record) u found v) ∨
    (∀ u, ¬ Reaches s st u) ∧ found = []

/-- The bytes in front of which the step stands begin with the front of a data segment. -/
def FindsHead (s : List UInt8) (head : SegmentHead) : Prop :=
  ∃ x y, Reaches s .dataSegment (x ++ y) ∧ Grammar.SegmentHead x head

theorem map_summary {β γ : Type} (f : β → γ) (told : β) :
    (summary s st told).map f = summary s st (f told) := by
  rw [summary, summary]
  split <;> rfl

/-- The step adds these entries to the journal. -/
def Step.Adds (s : List UInt8) (entries : List Journal.Entry) (st : Step) : Prop :=
  (behind s st).journal = (comingTo s st).journal ++ entries

open Journal (debugLine referenceLine segmentLine symbolLine) in
/-- The lines that a step tells when the bytes `s` are read. -/
def Step.Tells (s : List UInt8) (lines : List String) : Step → Prop
  | .header => lines = summary s .header
      (debugLine ("header magic ends at byte " ++ toString (behind s .header).consumed))
  | .version => lines = summary s .version (debugLine "object file version 1")
  | .dependencies => lines = summary s .dependencies (debugLine ("skipped " ++
      toString ((behind s .dependencies).consumed - (comingTo s .dependencies).consumed - 1) ++
        " bytes of dependency names"))
  | .references => ∃ found, FindsAll Grammar.Reference s .references found ∧
      lines = found.mapIdx referenceLine ++ summary s .references
        (debugLine ("read " ++ toString found.length ++ " symbol references"))
  | .dataSegment =>
      (∃ head, FindsHead s head ∧ lines = [segmentLine head]) ∨
        (∀ head, ¬ FindsHead s head) ∧ lines = []
  | .symbols => ∃ found, FindsAll Grammar.SymbolRecord s .symbols found ∧
      lines = (SymbolRecord.placeAll 0 found).map symbolLine ++ summary s .symbols
        (debugLine ("read " ++ toString found.length ++ " symbols covering " ++
          toString (SymbolRecord.stopAll 0 found).toInt ++ " data bytes"))
  | .footer => lines = summary s .footer
      (debugLine ("footer ok, " ++ toString (behind s .footer).consumed ++ " bytes consumed"))

/-! ## Steps that are not reached -/

section Unreached

variable {fault : Fault}

theorem behind_of_failure (h : (comingTo s st).reader.failure = some fault) :
    behind s st = comingTo s st := by
  rw [behind, step_of_failure h]

theorem not_reaches_of_failure (h : (comingTo s st).reader.failure = some fault) :
    ¬ Reaches s st u := by
  intro hu
  rw [(reaches_iff.1 hu).1] at h
  cases h

theorem summary_of_failure (h : (comingTo s st).reader.failure = some fault)
    (entry : Journal.Entry) : summary s st entry = [] := by
  exact summary_of_error (congrArg Prod.fst (step_of_failure h st)) entry

end Unreached

/-! ## Steps that tell one entry -/

/-- A step that makes an entry of what it has read. -/
theorem adds_read_note (p : Parser α) (entry : α → Session → Journal.Entry)
    (hstep : step st = read p >>= fun v => modify fun t => t.note (entry v t)) {e : Journal.Entry}
    (he : ∀ v t, read p (comingTo s st) = (.ok v, t) → behind s st = t.note (entry v t) →
      entry v t = e) : st.Adds s (summary s st e) := by
  rw [Step.Adds]
  have happly : step st (comingTo s st) = _ := congrFun hstep (comingTo s st)
  rw [bind_apply] at happly
  rcases hread : read p (comingTo s st) with ⟨fault | v, t⟩
  all_goals
    have hjournal : t.journal = (comingTo s st).journal :=
      congrArg (fun r => r.2.journal) hread.symm
    rw [hread] at happly
  · rw [summary_of_error (congrArg Prod.fst happly), behind, happly, List.append_nil]
    exact hjournal
  · have hbehind : behind s st = t.note (entry v t) := congrArg Prod.snd happly
    rw [summary_of_ok (congrArg Prod.fst happly), hbehind, ← he v t hread hbehind, ← hjournal]
    rfl

/-- What is read is accepted, and the bytes taken are counted. -/
theorem accepts_of_read {p : Parser α} [p.Firm] {v : α} {x t : Session}
    (h : read p x = (.ok v, t)) :
    ∃ w, p.Accepts w v ∧ t.consumed = x.consumed + w.length := by
  rw [read_apply] at h
  obtain ⟨hout, rfl⟩ := Prod.mk.inj h
  have hattempt : x.reader.attempt p = (.ok v, (x.reader.attempt p).2) := Prod.ext hout rfl
  obtain ⟨w, hw, hconsumed, -⟩ := Reader.accepts_of_attempt hattempt
  exact ⟨w, hw, hconsumed⟩

/-- A step that makes an entry of how many bytes have been taken by then. -/
theorem adds_read_consumed (p : Parser Unit) (entry : Nat → Journal.Entry)
    (hstep : step st = read p >>= fun _ => modify fun t => t.note (entry t.consumed)) :
    st.Adds s (summary s st (entry (behind s st).consumed)) := by
  refine adds_read_note p (fun _ t => entry t.consumed) hstep fun _ t _ hbehind => ?_
  rw [hbehind]
  rfl

theorem adds_version (s : List UInt8) :
    Step.Adds s (summary s .version (.version Envelope.currentVersion)) .version := by
  refine adds_read_note .version (fun v _ => .version v) rfl fun v t hread _ => ?_
  obtain ⟨w, hw, -⟩ := accepts_of_read hread
  rw [(Parser.accepts_version.1 hw).2]

theorem adds_dependencies (s : List UInt8) :
    Step.Adds s (summary s .dependencies (.dependencies
      ((behind s .dependencies).consumed - (comingTo s .dependencies).consumed - 1)))
      .dependencies := by
  refine adds_read_note .dependencies (fun size _ => .dependencies size) rfl
    fun size t hread hbehind => ?_
  obtain ⟨w, hw, hconsumed⟩ := accepts_of_read hread
  obtain ⟨names, rfl, -, rfl⟩ := Parser.accepts_dependencies.1 hw
  have hsame : (behind s .dependencies).consumed = t.consumed := by rw [hbehind]; rfl
  rw [hsame, hconsumed, List.length_append, List.length_singleton]
  congr 1
  omega

/-! ## The data segment -/

theorem Reaches.unique {v : List UInt8} (h : Reaches s st u) (h' : Reaches s st v) : u = v := by
  have hsignals := (reaches_iff.1 h).2.symm.trans (reaches_iff.1 h').2
  exact (List.map_inj_right fun _ _ => Signal.byte.inj).1 hsignals

/-- The bytes of the segment are read without an entry. -/
theorem journal_read_data (size : Nat) (x : Session) :
    ((do
        let bytes ← read (.block size)
        modify fun s => { s with data := bytes } : Action Unit) x).2.journal = x.journal := by
  rw [bind_apply]
  rcases hread : read (.block size) x with ⟨fault | bytes, t⟩
  all_goals exact congrArg (fun r => r.2.journal) hread.symm

theorem tells_dataSegment (s : List UInt8) :
    ∃ entries, Step.Adds s entries .dataSegment ∧
      Step.Tells s (entries.map Journal.Entry.line) .dataSegment := by
  cases hfailure : (comingTo s .dataSegment).reader.failure with
  | some fault =>
    refine ⟨[], ?_, .inr ⟨?_, rfl⟩⟩
    · rw [Step.Adds, behind_of_failure hfailure, List.append_nil]
    · rintro head ⟨x, y, hreaches, -⟩
      exact not_reaches_of_failure hfailure hreaches
  | none =>
    obtain ⟨u, hu⟩ := exists_reaches hfailure
    have happly : step .dataSegment (comingTo s .dataSegment) = _ :=
      bind_apply (read .segmentHead) _ _
    obtain ⟨w, r, head, i, rfl, hw, hrun, -⟩ | ⟨⟨fault, i, hrun⟩, hnone⟩ :=
      Parser.accepts_or_fails (p := Parser.segmentHead) (reaches_iff.1 hu).2
    · rw [read_apply, Reader.attempt_of_run hfailure hrun] at happly
      rw [Parser.accepts_segmentHead] at hw
      refine ⟨[.segment head], ?_, .inl ⟨head, ⟨w, r, hu, hw⟩, ?_⟩⟩
      case refine_2 => rw [List.map_singleton, Journal.line_segment]
      rw [Step.Adds, behind, happly]
      exact journal_read_data head.size
        (note (.segment head) { comingTo s .dataSegment with reader := ⟨i, none⟩ })
    · rw [read_apply, Reader.attempt_of_run hfailure hrun] at happly
      refine ⟨[], ?_, .inr ⟨?_, rfl⟩⟩
      · rw [Step.Adds, behind, happly, List.append_nil]
      · rintro head ⟨x, y, hreaches, hx⟩
        rw [← Parser.accepts_segmentHead] at hx
        exact hnone x y head (hu.unique hreaches) hx

/-! ## Tables -/

/-- A table tells of all records that lead the bytes, and makes one more entry if it succeeds. -/
theorem adds_takeTable {part : Section} {item : Parser α} [item.Steady]
    {add : List α → Session → Session} {entry : Session → Journal.Entry}
    (hstep : step st = takeTable part item add fun t => t.note (entry t))
    {told : List α → List Journal.Entry} {last : List α → Journal.Entry}
    (hadd : ∀ found reader, (add found { comingTo s st with reader }).journal =
      (comingTo s st).journal ++ told found)
    (hlast : ∀ found reader, entry (add found { comingTo s st with reader }) = last found)
    (hnil : told [] = []) :
    ∃ found, FindsAll item.Accepts s st found ∧
      st.Adds s (told found ++ summary s st (last found)) := by
  cases hfailure : (comingTo s st).reader.failure with
  | some fault =>
    refine ⟨[], .inr ⟨fun u => not_reaches_of_failure hfailure, rfl⟩, ?_⟩
    rw [Step.Adds, behind_of_failure hfailure, summary_of_failure hfailure, hnil,
      List.append_nil, List.append_nil]
  | none =>
    obtain ⟨u, hu⟩ := exists_reaches hfailure
    obtain ⟨found, outcome, i, v, hread, hleading⟩ :=
      read_records part item hfailure (reaches_iff.1 hu).2
    have happly : step st (comingTo s st) = _ := congrFun hstep (comingTo s st)
    rw [takeTable, bind_apply, hread] at happly
    refine ⟨found, .inl ⟨u, v, hu, hleading⟩, ?_⟩
    rw [Step.Adds, ← List.append_assoc, ← hadd found ⟨i, none⟩, ← hlast found ⟨i, none⟩]
    cases outcome with
    | ok _ =>
      rw [summary_of_ok (congrArg Prod.fst happly), behind, happly]
      rfl
    | error fault =>
      rw [summary_of_error (congrArg Prod.fst happly), behind, happly, List.append_nil]
      rfl

theorem tells_references (s : List UInt8) :
    ∃ entries, Step.Adds s entries .references ∧
      Step.Tells s (entries.map Journal.Entry.line) .references := by
  have hfirst : (comingTo s .references).references = [.empty] :=
    (keeps_course (ofEvents [.data s]) Step.references.before).references_eq (by decide)
  have hstep : step .references = takeTable .references .reference addReferences
    fun t => t.note (.references (t.references.length - 1)) := rfl
  have hadd (found : List Reference) (reader : Reader) :
      (addReferences found { comingTo s .references with reader }).journal =
        (comingTo s .references).journal ++ found.mapIdx fun k r => .reference (k + 1) r := by
    rw [addReferences]
    dsimp only
    rw [hfirst]
    simp only [List.length_singleton, Nat.add_comm 1]
  have hlast (found : List Reference) (reader : Reader) : Journal.Entry.references
      ((addReferences found { comingTo s .references with reader }).references.length - 1) =
        .references found.length := by
    rw [addReferences]
    dsimp only
    rw [hfirst, List.length_append, List.length_singleton, Nat.add_sub_cancel_left]
  obtain ⟨found, hfound, hadds⟩ := adds_takeTable hstep hadd hlast rfl
  rw [Parser.accepts_reference] at hfound
  refine ⟨_, hadds, found, hfound, ?_⟩
  have hlines : (found.mapIdx fun k r => Journal.Entry.reference (k + 1) r).map
      Journal.Entry.line = found.mapIdx Journal.referenceLine := by
    rw [List.mapIdx_eq_zipIdx_map, List.mapIdx_eq_zipIdx_map, List.map_map]
    exact List.map_congr_left fun _ _ => Journal.line_reference _ _
  rw [List.map_append, map_summary, hlines, Journal.line_eq_debugLine rfl rfl]
  rfl

theorem tells_symbols (s : List UInt8) :
    ∃ entries, Step.Adds s entries .symbols ∧
      Step.Tells s (entries.map Journal.Entry.line) .symbols := by
  obtain ⟨hnone, hzero⟩ : (comingTo s .symbols).symbols = [] ∧ (comingTo s .symbols).next = 0 :=
    (keeps_course (ofEvents [.data s]) Step.symbols.before).symbols_eq (by decide)
  have hstep : step .symbols = takeTable .symbols .symbolRecord addSymbols
    fun t => t.note (.symbols t.symbols.length t.next) := rfl
  have hadd (found : List SymbolRecord) (reader : Reader) :
      (addSymbols found { comingTo s .symbols with reader }).journal =
        (comingTo s .symbols).journal ++ (SymbolRecord.placeAll 0 found).map .symbol := by
    rw [addSymbols]
    dsimp only
    rw [hzero]
  have hlast (found : List SymbolRecord) (reader : Reader) :
      Journal.Entry.symbols (addSymbols found { comingTo s .symbols with reader }).symbols.length
        (addSymbols found { comingTo s .symbols with reader }).next =
          .symbols found.length (SymbolRecord.stopAll 0 found) := by
    rw [addSymbols]
    dsimp only
    rw [hnone, hzero, List.nil_append, SymbolRecord.length_placeAll]
  obtain ⟨found, hfound, hadds⟩ := adds_takeTable hstep hadd hlast rfl
  rw [Parser.accepts_symbolRecord] at hfound
  refine ⟨_, hadds, found, hfound, ?_⟩
  have hlines : ((SymbolRecord.placeAll 0 found).map Journal.Entry.symbol).map
      Journal.Entry.line = (SymbolRecord.placeAll 0 found).map Journal.symbolLine := by
    rw [List.map_map]
    exact List.map_congr_left fun s _ => Journal.line_symbol s
  rw [List.map_append, map_summary, hlines, Journal.line_symbols]

/-! ## All steps -/

theorem tells_step (s : List UInt8) (st : Step) :
    ∃ entries, st.Adds s entries ∧ st.Tells s (entries.map Journal.Entry.line) := by
  cases st with
  | header =>
    refine ⟨_, adds_read_consumed .header .header rfl, ?_⟩
    rw [map_summary, Journal.line_eq_debugLine rfl rfl]
    rfl
  | version =>
    refine ⟨_, adds_version s, ?_⟩
    rw [map_summary, Journal.line_eq_debugLine rfl rfl]
    rfl
  | dependencies =>
    refine ⟨_, adds_dependencies s, ?_⟩
    rw [map_summary, Journal.line_eq_debugLine rfl rfl]
    rfl
  | references => exact tells_references s
  | dataSegment => exact tells_dataSegment s
  | symbols => exact tells_symbols s
  | footer =>
    refine ⟨_, adds_read_consumed .footer .footer rfl, ?_⟩
    rw [map_summary, Journal.line_eq_debugLine rfl rfl]
    rfl

theorem before_eq {before after : List Step} (h : pipeline = before ++ st :: after) :
    st.before = before := by
  have hnodup : (before ++ st :: after).Nodup := h ▸ (by decide : pipeline.Nodup)
  have hnotMem : st ∉ before := fun hmem =>
    (List.nodup_append.1 hnodup).2.2 st hmem st List.mem_cons_self rfl
  rw [Step.before, h, List.takeWhile_append_of_pos, List.takeWhile_cons_of_neg (by simp),
    List.append_nil]
  intro other hother
  exact decide_eq_true fun heq => hnotMem (heq ▸ hother)

/-- What all steps tell, one step behind another. -/
theorem journal_course {told : Step → List Journal.Entry}
    (htold : ∀ st : Step, st.Adds s (told st))
    {before after : List Step} (h : pipeline = before ++ after) :
    ((ofEvents [.data s]).course before).2.journal = before.flatMap told := by
  induction before using List.reverseRecOn generalizing after with
  | nil => rfl
  | append_singleton before st ih =>
    rw [List.append_assoc, List.singleton_append] at h
    have hbehind : ((ofEvents [.data s]).course (before ++ [st])).2 = behind s st := by
      rw [behind, comingTo, before_eq h, course_append]
      rfl
    have hadds := htold st
    rw [Step.Adds] at hadds
    rw [hbehind, hadds, List.flatMap_append, List.flatMap_singleton, comingTo, before_eq h, ih h]

/-! ## Lines of one kind -/

section Kinds

variable {lines : List String} {told : Step → List String}

open Journal

theorem heads_of_mem_summary {text line : String} (h : line ∈ summary s st (debugLine text)) :
    Heads "DEBUG [goobj_reader::decoder] " line := by
  rw [summary] at h
  split at h
  · rw [List.mem_singleton.1 h]
    exact heads_debugLine text
  · cases h

/-- Lines at the level `trace` are told by the two tables, each with a heading of its own. -/
theorem Step.Tells.heads (h : st.Tells s lines) :
    ∀ line ∈ lines, Heads "DEBUG [goobj_reader::decoder] " line ∨
      (st = .references ∧ Heads "TRACE [goobj_reader::decoder] reference " line) ∨
      (st = .symbols ∧ Heads "TRACE [goobj_reader::decoder] symbol " line) := by
  intro line hline
  cases st with
  | references =>
    obtain ⟨found, -, rfl⟩ := h
    obtain hline | hline := List.mem_append.1 hline
    · obtain ⟨k, hk, rfl⟩ := List.mem_mapIdx.1 hline
      exact .inr (.inl ⟨rfl, heads_referenceLine k _⟩)
    · exact .inl (heads_of_mem_summary hline)
  | symbols =>
    obtain ⟨found, -, rfl⟩ := h
    obtain hline | hline := List.mem_append.1 hline
    · obtain ⟨symbol, -, rfl⟩ := List.mem_map.1 hline
      exact .inr (.inr ⟨rfl, heads_symbolLine symbol⟩)
    · exact .inl (heads_of_mem_summary hline)
  | dataSegment =>
    obtain ⟨head, -, rfl⟩ | ⟨-, rfl⟩ := h
    · rw [List.mem_singleton.1 hline]
      exact .inl (heads_debugLine _)
    · cases hline
  | _ =>
    rw [Step.Tells] at h
    rw [h] at hline
    exact .inl (heads_of_mem_summary hline)

/-- Lines that only one step tells are those of this step. -/
theorem filter_flatMap_pipeline {p : String → Bool} (st : Step)
    (h : ∀ other ≠ st, (told other).filter p = []) :
    (pipeline.flatMap told).filter p = (told st).filter p := by
  have htold (other : Step) : (told other).filter p =
      if other = st then (told st).filter p else [] := by
    split
    case isTrue heq => rw [heq]
    case isFalse hne => exact h other hne
  rw [List.filter_flatMap, funext htold]
  cases st <;> simp [pipeline]

/-- A table tells its lines and the one at the end. -/
theorem filter_table {items : List String} {heading text : String}
    (h : told st = items ++ summary s st (debugLine text))
    (hitems : ∀ line ∈ items, Heads heading line)
    (hheading : ¬ heading.toList <+: "DEBUG [goobj_reader::decoder] ".toList ∧
      ¬ "DEBUG [goobj_reader::decoder] ".toList <+: heading.toList) :
    (told st).filter (Heads heading ·) = items := by
  have hself : items.filter (Heads heading ·) = items :=
    List.filter_eq_self.2 fun line hline => decide_eq_true (hitems line hline)
  have hnil : (summary s st (debugLine text)).filter (Heads heading ·) = [] :=
    List.filter_eq_nil_iff.2 fun line hline hheads =>
      (of_decide_eq_true hheads).absurd (heads_of_mem_summary hline) hheading
  rw [h, List.filter_append, hself, hnil, List.append_nil]

variable (htells : ∀ st : Step, st.Tells s (told st))

include htells

theorem filter_referenceLines :
    ∃ found, FindsAll Grammar.Reference s .references found ∧
      (pipeline.flatMap told).filter (Heads "TRACE [goobj_reader::decoder] reference " ·) =
        found.mapIdx referenceLine := by
  obtain ⟨found, hfound, hlines⟩ := htells .references
  refine ⟨found, hfound, ?_⟩
  rw [filter_flatMap_pipeline .references, filter_table hlines ?_ (by decide +kernel)]
  · intro line hline
    obtain ⟨k, hk, rfl⟩ := List.mem_mapIdx.1 hline
    exact heads_referenceLine k _
  · refine fun other hother => List.filter_eq_nil_iff.2 fun line hline hheads => ?_
    have hheads := of_decide_eq_true hheads
    obtain hdebug | ⟨heq, -⟩ | ⟨-, hsymbol⟩ := (htells other).heads line hline
    · exact hheads.absurd hdebug (by decide +kernel)
    · exact hother heq
    · exact hheads.absurd hsymbol (by decide +kernel)

theorem filter_symbolLines :
    ∃ found, FindsAll Grammar.SymbolRecord s .symbols found ∧
      (pipeline.flatMap told).filter (Heads "TRACE [goobj_reader::decoder] symbol " ·) =
        (SymbolRecord.placeAll 0 found).map symbolLine := by
  obtain ⟨found, hfound, hlines⟩ := htells .symbols
  refine ⟨found, hfound, ?_⟩
  rw [filter_flatMap_pipeline .symbols, filter_table hlines ?_ (by decide +kernel)]
  · intro line hline
    obtain ⟨symbol, -, rfl⟩ := List.mem_map.1 hline
    exact heads_symbolLine symbol
  · refine fun other hother => List.filter_eq_nil_iff.2 fun line hline hheads => ?_
    have hheads := of_decide_eq_true hheads
    obtain hdebug | ⟨-, hreference⟩ | ⟨heq, -⟩ := (htells other).heads line hline
    · exact hheads.absurd hdebug (by decide +kernel)
    · exact hheads.absurd hreference (by decide +kernel)
    · exact hother heq

end Kinds

end Session

/-! ## The log -/

namespace Object

/-- The lines of the log, up to the last level, when bytes are read. -/
def log (s : List UInt8) : List String := (decode [.data s]).2.journal.map Journal.Entry.line

/-- The command shows these lines, if it shows all entries. -/
theorem log_eq (s : List UInt8) :
    Command.log (fun _ _ _ => true) (decode [.data s]).2.journal =
      String.join ((log s).map (· ++ "\n")) := by
  rw [Command.log, log, List.filter_eq_self.2 fun _ _ => rfl, List.map_map]
  rfl

/-- The log tells how far reading came, line by line, as the command shows it.

That of a front part of the bytes is a front part of the log, and all of it if no byte beyond the
front part is taken.  Every log consists of the lines that the steps tell, one step behind another
in the order in which they are taken.  So the lines of references are numbered from one on without
a gap, one for each reference that was read, and there is one line for each symbol that was read,
in their order; there are no other lines that begin as these do. -/
theorem log_tells (s : List UInt8) :
    (∀ p, p <+: s →
      log p <+: log s ∧ ((ofBytes s).2 ≤ p.length → log p = log s)) ∧
    (∃ told : Session.Step → List String,
      log s = Session.pipeline.flatMap told ∧ ∀ st : Session.Step, st.Tells s (told st)) ∧
    (∃ found, Session.FindsAll Grammar.Reference s .references found ∧
      (log s).filter (Journal.Heads "TRACE [goobj_reader::decoder] reference " ·) =
        found.mapIdx Journal.referenceLine) ∧
    (∃ found, Session.FindsAll Grammar.SymbolRecord s .symbols found ∧
      (log s).filter (Journal.Heads "TRACE [goobj_reader::decoder] symbol " ·) =
        (SymbolRecord.placeAll 0 found).map Journal.symbolLine) ∧
    Command.log (fun _ _ _ => true) (decode [.data s]).2.journal =
      String.join ((log s).map (· ++ "\n")) := by
  choose entries hadds htells using Session.tells_step s
  have hlog : log s =
      Session.pipeline.flatMap fun st => (entries st).map Journal.Entry.line := by
    have hdecode := Session.decode_eq_result (.ofEvents [.data s])
    have hjournal := Session.journal_course hadds (List.append_nil Session.pipeline).symm
    rw [log, decode, hdecode, Session.result_eq, ← List.map_flatMap, ← hjournal]
  refine ⟨fun p hp => ?_, ⟨_, hlog, htells⟩, ?_, ?_, log_eq s⟩
  · obtain ⟨hfront, hall⟩ := journal_prefix hp
    exact ⟨hfront.map _, fun hlength => congrArg (List.map Journal.Entry.line) (hall hlength)⟩
  · rw [hlog]
    exact Session.filter_referenceLines htells
  · rw [hlog]
    exact Session.filter_symbolLines htells

/-- A file with a byte behind it that is not taken, the file without its last byte, and the bytes up
to its first reference, of which the table is not complete. -/
theorem log_tells_sample :
    log Container.sample.word = log (Container.sample.word ++ [7]) ∧
      log (Container.sample.word.take 82) <+: log (Container.sample.word ++ [7]) ∧
      log (Container.sample.word.take 24) =
        ["DEBUG [goobj_reader::decoder] header magic ends at byte 10",
          "DEBUG [goobj_reader::decoder] object file version 1",
          "DEBUG [goobj_reader::decoder] skipped 3 bytes of dependency names",
          "TRACE [goobj_reader::decoder] reference 1: main.f v0"] := by
  obtain ⟨hfront, -⟩ := log_tells (Container.sample.word ++ [7])
  have hword : Container.sample.word <+: Container.sample.word ++ [7] := List.prefix_append ..
  refine ⟨(hfront _ hword).2 (by decide +kernel), ?_, by decide +kernel⟩
  exact (hfront _ ((List.take_prefix 82 _).trans hword)).1

end Object

end ObjectFile
