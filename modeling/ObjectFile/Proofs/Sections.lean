import ObjectFile.Proofs.Answers
import ObjectFile.Proofs.Findings
import ObjectFile.Proofs.Writing
/-!
# Sections

The sections of an object file may be read in any order and more than once, so it has to be said
what they do to one another.

Where the bytes to come are words of the steps one behind another, a course of steps succeeds and
adds up what is found (`Session.Stands.course`); with `Session.finds_of_course` this is all there
is to say about courses without a fault.  It makes no difference, then, whether the records of a
table stand in one table or in two, since the offset at which the next block begins is handed on
from the first to the second (`Session.addsUp_of_finds`).

What a step does not read it leaves as it is, also when it fails.  So what becomes of a part of
the contents is a matter of the steps that read this part, wherever in a course they are taken
(`Session.keeps_course`).
-/

namespace ObjectFile

namespace Grammar

variable {α : Type} {item : List UInt8 → α → Prop} {u v : List UInt8} {as bs : List α}

theorem Sequence.append (h : Sequence item u as) (h' : Sequence item v bs) :
    Sequence item (u ++ v) (as ++ bs) := by
  induction h with
  | nil => exact h'
  | cons head _ ih =>
    rw [List.append_assoc, List.cons_append]
    exact .cons head ih

/-- The records of a table are what stands in front of the marker of the end. -/
theorem table_iff_sequence :
    Table item (u ++ [endMarker]) as ↔ Sequence (Parser.Marked item) u as := by
  constructor
  · rintro ⟨records, _, hw, hrecords, _, _, rfl, rfl, rfl⟩
    rw [List.append_nil] at hw
    rwa [(List.append_inj' hw rfl).1]
  · intro h
    exact inOrder_cons h (inOrder_last rfl)

/-- The records of two tables, in one table. -/
theorem Table.append (h : Table item (u ++ [endMarker]) as)
    (h' : Table item (v ++ [endMarker]) bs) :
    Table item (u ++ v ++ [endMarker]) (as ++ bs) :=
  table_iff_sequence.2 ((table_iff_sequence.1 h).append (table_iff_sequence.1 h'))

end Grammar

namespace Session

variable {α : Type} {c d e : Contents} {st : Step} {steps : List Step}

/-! ## Courses on words -/

/-- Where a session stands that has no fault: what it has read so far, how many bytes it has
taken and what the device is going to say. -/
structure Stands (s : Session) (c : Contents) (consumed : Nat) (signals : List Signal) : Prop where
  reader : s.reader.Stands none consumed signals
  contents_eq : s.contents = c

/-- Bytes in which a step finds something are a word of the step. -/
theorem Step.Finds.word {w : List UInt8} {finding : Finding} (h : st.Finds w finding)
    (c : Contents) : st.Word c w (c.add finding) := by
  cases st with
  | header | version | dependencies | footer =>
    cases finding with
    | nothing => exact ⟨h, rfl⟩
    | _ => exact h.elim
  | references =>
    cases finding with
    | references found => exact ⟨found, h, rfl⟩
    | _ => exact h.elim
  | dataSegment =>
    cases finding with
    | segment head data =>
      obtain ⟨size, hints⟩ := head
      obtain ⟨hw, rfl⟩ := h
      exact ⟨hints, data, hw, rfl⟩
    | _ => exact h.elim
  | symbols =>
    cases finding with
    | symbols found => exact ⟨found, h, rfl⟩
    | _ => exact h.elim

namespace Stands

variable {s t : Session} {m n : Nat} {rest : List Signal} {w A B : List UInt8}

/-- A step that finds something in the bytes to come succeeds. -/
theorem step {finding : Finding} (hs : s.Stands c n (w.map .byte ++ rest))
    (h : st.Finds w finding) :
    (Session.step st s).2.Stands (c.add finding) (n + w.length) rest := by
  obtain rfl := hs.contents_eq
  have hw : (st.parser s.contents).Accepts w (s.contents.add finding) :=
    Step.accepts_iff_word.2 (h.word s.contents)
  obtain ⟨i, hrun, hsignals, hconsumed⟩ :=
    (Parser.Decides.map hw ((), ·)).run_eq hs.reader.signals_eq
  have hmirrors := mirrors_step st s hs.reader.failure_eq
  rw [hrun] at hmirrors
  obtain ⟨t, ht, hreader, hcontents⟩ := hmirrors
  rw [ht]
  refine ⟨⟨by rw [hreader], ?_, by rw [hreader]; exact hsignals⟩, hcontents⟩
  rw [hreader, ← hs.reader.consumed_eq]
  exact hconsumed

/-- So does a course of steps that find something each, and what they find adds up. -/
theorem course {findings : List Finding} (h : Finds steps w findings)
    (hs : s.Stands c n (w.map .byte ++ rest)) :
    (s.course steps).2.Stands (findings.foldl Contents.add c) (n + w.length) rest := by
  induction h generalizing s c n with
  | nil => exact hs
  | @cons st steps u v finding findings head _ ih =>
    rw [List.map_append, List.append_assoc] at hs
    have hrest := ih (hs.step head)
    rwa [Nat.add_assoc, ← List.length_append] at hrest

end Stands

/-! ## Tables that are read one behind another -/

namespace Contents

/-- The contents behind more references. -/
def addReferences (c : Contents) (found : List Reference) : Contents :=
  { c with references := c.references ++ found }

theorem addReferences_addReferences (c : Contents) (as bs : List Reference) :
    (c.addReferences as).addReferences bs = c.addReferences (as ++ bs) := by
  simp [addReferences]

/-- The blocks of further symbols begin where those of the symbols before them stop. -/
theorem addSymbols_addSymbols (c : Contents) (as bs : List SymbolRecord) :
    (c.addSymbols as).addSymbols bs = c.addSymbols (as ++ bs) := by
  simp [addSymbols, SymbolRecord.placeAll_append, SymbolRecord.stopAll]

end Contents

/-- A step reads two tables of records as it reads the one table that has the records of both.
Of two sessions with the same contents, before the two tables and before the one, both succeed,
with the same contents, and have the same signals left. -/
def Step.AddsUp (st : Step) (record : List UInt8 → α → Prop)
    (add : Contents → List α → Contents) : Prop :=
  ∀ (A B : List UInt8) (as bs : List α),
    Grammar.Table record (A ++ [endMarker]) as → Grammar.Table record (B ++ [endMarker]) bs →
    ∀ (s t : Session) (c : Contents) (m n : Nat) (rest : List Signal),
      s.Stands c m ((A ++ [endMarker] ++ (B ++ [endMarker])).map .byte ++ rest) →
      t.Stands c n ((A ++ B ++ [endMarker]).map .byte ++ rest) →
      (s.course [st, st]).2.Stands (add c (as ++ bs)) (m + (A.length + B.length + 2)) rest ∧
        (t.course [st]).2.Stands (add c (as ++ bs)) (n + (A.length + B.length + 1)) rest

theorem addsUp_of_finds {record : List UInt8 → α → Prop} {add : Contents → List α → Contents}
    (finding : List α → Finding)
    (hfinds : ∀ {w as}, Grammar.Table record w as → st.Finds w (finding as))
    (hadd : ∀ c as, c.add (finding as) = add c as)
    (happend : ∀ c as bs, add (add c as) bs = add c (as ++ bs)) : st.AddsUp record add := by
  intro A B as bs hA hB s t c m n rest hs ht
  have htwo : Finds [st, st] (A ++ [endMarker] ++ (B ++ [endMarker] ++ []))
      [finding as, finding bs] := .cons (hfinds hA) (.cons (hfinds hB) .nil)
  have hone : Finds [st] (A ++ B ++ [endMarker] ++ []) [finding (as ++ bs)] :=
    .cons (hfinds (hA.append hB)) .nil
  rw [List.append_nil] at htwo hone
  have hlength : (A ++ [endMarker] ++ (B ++ [endMarker])).length = A.length + B.length + 2 := by
    simp only [List.length_append, List.length_singleton]
    omega
  have hs' := hs.course htwo
  have ht' := ht.course hone
  rw [hlength, List.foldl_cons, List.foldl_cons, List.foldl_nil, hadd, hadd, happend] at hs'
  rw [List.length_append, List.length_append, List.length_singleton, List.foldl_cons,
    List.foldl_nil, hadd] at ht'
  exact ⟨hs', ht'⟩

theorem addsUp_references : Step.references.AddsUp Grammar.Reference Contents.addReferences :=
  addsUp_of_finds .references id (fun _ _ => rfl) Contents.addReferences_addReferences

theorem addsUp_symbols : Step.symbols.AddsUp Grammar.SymbolRecord Contents.addSymbols :=
  addsUp_of_finds .symbols id (fun _ _ => rfl) Contents.addSymbols_addSymbols

/-! ## What a course leaves alone -/

/-- What becomes of contents behind a course of steps: references and symbols are only added to,
and what none of the steps reads is as it was. -/
structure Contents.Keeps (steps : List Step) (c c' : Contents) : Prop where
  references_prefix : c.references <+: c'.references
  symbols_prefix : c.symbols <+: c'.symbols
  references_eq : .references ∉ steps → c'.references = c.references
  data_eq : .dataSegment ∉ steps → c'.data = c.data
  symbols_eq : .symbols ∉ steps → c'.symbols = c.symbols ∧ c'.next = c.next

namespace Contents.Keeps

theorem refl (steps : List Step) (c : Contents) : Keeps steps c c :=
  ⟨List.prefix_rfl, List.prefix_rfl, fun _ => rfl, fun _ => rfl, fun _ => ⟨rfl, rfl⟩⟩

theorem of_effect (h : st.Effect c d) : Keeps [st] c d := by
  cases st with
  | references =>
    obtain ⟨found, rfl⟩ := h
    exact ⟨List.prefix_append _ _, List.prefix_rfl, fun hst => absurd (List.mem_singleton.2 rfl) hst,
      fun _ => rfl, fun _ => ⟨rfl, rfl⟩⟩
  | dataSegment =>
    obtain rfl | ⟨data, -, rfl⟩ := h
    · exact refl _ _
    · exact ⟨List.prefix_rfl, List.prefix_rfl, fun _ => rfl,
        fun hst => absurd (List.mem_singleton.2 rfl) hst, fun _ => ⟨rfl, rfl⟩⟩
  | symbols =>
    obtain ⟨found, rfl⟩ := h
    exact ⟨List.prefix_rfl, List.prefix_append _ _, fun _ => rfl, fun _ => rfl,
      fun hst => absurd (List.mem_singleton.2 rfl) hst⟩
  | header | version | dependencies | footer =>
    obtain rfl : d = c := h
    exact refl _ _

theorem trans {more : List Step} (h : Keeps steps c d) (h' : Keeps more d e) :
    Keeps (steps ++ more) c e where
  references_prefix := h.references_prefix.trans h'.references_prefix
  symbols_prefix := h.symbols_prefix.trans h'.symbols_prefix
  references_eq hst := by
    rw [List.mem_append, not_or] at hst
    rw [h'.references_eq hst.2, h.references_eq hst.1]
  data_eq hst := by
    rw [List.mem_append, not_or] at hst
    rw [h'.data_eq hst.2, h.data_eq hst.1]
  symbols_eq hst := by
    rw [List.mem_append, not_or] at hst
    rw [(h'.symbols_eq hst.2).1, (h'.symbols_eq hst.2).2]
    exact h.symbols_eq hst.1

end Contents.Keeps

/-- Whatever the device brings and whether steps fail or not. -/
theorem keeps_course (s : Session) (steps : List Step) :
    Contents.Keeps steps s.contents (s.course steps).2.contents := by
  induction steps generalizing s with
  | nil => exact .refl _ _
  | cons st steps ih => exact (Contents.Keeps.of_effect (effect_step st s)).trans (ih _)

/-- Sections add up and do not disturb one another.  The records of two tables are read as those
of one table that has them all, with the same symbols, the same blocks and the same offset behind
them, and so are references; of two data segments the second is the one that stays.  In any course
of steps, whether they succeed or fail, references and symbols are only added to, and what none of
the steps reads is as it was. -/
theorem sections_add_up :
    Step.symbols.AddsUp Grammar.SymbolRecord Contents.addSymbols ∧
    Step.references.AddsUp Grammar.Reference Contents.addReferences ∧
    (∀ (u v : List UInt8) (before head : SegmentHead) (former data : List UInt8),
      Step.dataSegment.Finds u (.segment before former) →
      Step.dataSegment.Finds v (.segment head data) →
      ∀ (s : Session) (c : Contents) (n : Nat) (rest : List Signal),
        s.Stands c n ((u ++ v).map .byte ++ rest) →
        (s.course [.dataSegment, .dataSegment]).2.Stands { c with data } (n + (u ++ v).length)
          rest) ∧
    ∀ (s : Session) (steps : List Step),
      Contents.Keeps steps s.contents (s.course steps).2.contents := by
  refine ⟨addsUp_symbols, addsUp_references, ?_, keeps_course⟩
  intro u v before head former data hu hv s c n rest hs
  have htwo := Finds.cons hu (.cons hv .nil)
  rw [List.append_nil] at htwo
  exact hs.course htwo

/-- Two tables of symbols, of which the second comes behind an interruption, and two segments. -/
theorem sections_add_up_twice :
    let r : SymbolRecord := ⟨.data, 1, 0, 4, 0, 4, [], none, rfl⟩
    let q : SymbolRecord := ⟨.data, 2, 0, 3, 0, 3, [], none, rfl⟩
    let A := [r].flatMap fun r => recordMarker :: r.write
    let B := [q].flatMap fun r => recordMarker :: r.write
    let s := ofEvents
      [.data (A ++ [endMarker]), .failure .interrupted "", .data (B ++ [endMarker])]
    let t := ofEvents [.data (A ++ B ++ [endMarker])]
    let both : Contents := Contents.addSymbols {} [r, q]
    let hints : SizingHints := ⟨0, 0, 0, 0, 0⟩
    let front (size : Nat) := Varint.encode (Int64.ofNat size) ++ writeNumbers hints.toList
    let u := ofEvents [.data (front 2 ++ [7, 8] ++ (front 1 ++ [9]))]
    (Grammar.Table Grammar.SymbolRecord (A ++ [endMarker]) [r] ∧
      Grammar.Table Grammar.SymbolRecord (B ++ [endMarker]) [q] ∧
      (s.course [.symbols, .symbols]).2.Stands both 18 [] ∧
      (t.course [.symbols]).2.Stands both 17 [] ∧
      both.symbols.map Symbol.block = [⟨4, 0⟩, ⟨3, 4⟩] ∧ both.next = 7) ∧
    Step.dataSegment.Finds (front 2 ++ [7, 8]) (.segment ⟨2, hints⟩ [7, 8]) ∧
    Step.dataSegment.Finds (front 1 ++ [9]) (.segment ⟨1, hints⟩ [9]) ∧
    (u.course [.dataSegment, .dataSegment]).2.Stands { data := [9] } 15 [] ∧
    Contents.Keeps [.dataSegment, .dataSegment] {} { data := [9] } := by
  intro r q A B s t both hints front u
  have hA : Grammar.Table Grammar.SymbolRecord (A ++ [endMarker]) [r] :=
    Grammar.table_writeTable (List.forall_mem_singleton.2
      (Grammar.symbolRecord_write ⟨by decide, by simp [r]⟩))
  have hB : Grammar.Table Grammar.SymbolRecord (B ++ [endMarker]) [q] :=
    Grammar.table_writeTable (List.forall_mem_singleton.2
      (Grammar.symbolRecord_write ⟨by decide, by simp [q]⟩))
  have hfinds (size : Nat) (data : List UInt8) (hsize : size < 2 ^ 63) (h : data.length = size) :
      Step.dataSegment.Finds (front size ++ data) (.segment ⟨size, hints⟩ data) :=
    ⟨Grammar.inOrder_cons (Grammar.segmentHead_write hsize) (Grammar.inOrder_last rfl), h⟩
  have hformer := hfinds 2 [7, 8] (by decide) rfl
  have hdata := hfinds 1 [9] (by decide) rfl
  have hs : s.Stands {} 0 ((A ++ [endMarker] ++ (B ++ [endMarker])).map .byte ++ []) :=
    ⟨⟨rfl, rfl, by decide +kernel⟩, rfl⟩
  have ht : t.Stands {} 0 ((A ++ B ++ [endMarker]).map .byte ++ []) :=
    ⟨⟨rfl, rfl, by decide +kernel⟩, rfl⟩
  have hu : u.Stands {} 0 ((front 2 ++ [7, 8] ++ (front 1 ++ [9])).map .byte ++ []) :=
    ⟨⟨rfl, rfl, by decide +kernel⟩, rfl⟩
  obtain ⟨hsymbols, -, hsegments, hkeeps⟩ := sections_add_up
  obtain ⟨htwo, hone⟩ := hsymbols A B [r] [q] hA hB s t {} 0 0 [] hs ht
  have hlength : A.length = 8 ∧ B.length = 8 := by decide +kernel
  rw [hlength.1, hlength.2] at htwo hone
  have hlast := hsegments _ _ _ _ _ _ hformer hdata u {} 0 [] hu
  have hfifteen : 0 + (front 2 ++ [7, 8] ++ (front 1 ++ [9])).length = 15 := by decide +kernel
  have hkept := hkeeps u [.dataSegment, .dataSegment]
  rw [hlast.contents_eq] at hkept
  exact ⟨⟨hA, hB, htwo, hone, by decide +kernel, by decide +kernel⟩, hformer,
    hdata, hfifteen ▸ hlast, hkept⟩

end Session

end ObjectFile
