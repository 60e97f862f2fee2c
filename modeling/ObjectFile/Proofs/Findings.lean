import ObjectFile.Proofs.Contents
/-!
# What an object holds

The steps of a session may be taken in any order and as often as one likes.  What an object
holds then is what the steps found, in the order in which they found it: all references behind
the empty one, all symbols, and the data of the segment that was read last
(`Session.object_holds`).  What a step found is said by the grammar alone
(`Session.Step.Finds`), and a course of steps adds it up (`Session.finds_of_course`,
`Session.foldl_add`).

Some things are so of a session at any time, also behind a step that has failed in the middle
of a table (`Session.Contents.Sound`): the empty reference stands first, so there is always
one to be left out when the references are counted, and symbols are regular.
-/

namespace ObjectFile

/-- A symbol has a function just if it is executable, and the function's data have an index
and an offset each. -/
structure Symbol.Regular (s : Symbol) : Prop where
  textual : s.function.isSome ↔ s.kind = .text
  paired : ∀ f ∈ s.function, f.dataIds.length = f.dataOffsets.length

namespace SymbolRecord

theorem regular_place (r : SymbolRecord) (start : Int64) : (r.place start).Regular where
  textual := by
    rw [place, Option.isSome_map, r.textual, Symbol.Kind.isText, decide_eq_true_iff]
  paired := by
    intro f hf
    obtain ⟨g, -, rfl⟩ := Option.map_eq_some_iff.1 hf
    simp [FunctionRecord.place]

theorem regular_of_mem_placeAll {start : Int64} {rs : List SymbolRecord} {s : Symbol}
    (h : s ∈ placeAll start rs) : s.Regular := by
  induction rs generalizing start with
  | nil => cases h
  | cons r rs ih =>
    obtain rfl | h := List.mem_cons.1 h
    · exact r.regular_place start
    · exact ih h

end SymbolRecord

namespace Session

/-! ## What steps find -/

/-- What a step that succeeds finds. -/
inductive Finding where
  | nothing
  /-- The references of a table. -/
  | references (found : List Reference)
  /-- The front of a data segment, and its bytes. -/
  | segment (head : SegmentHead) (data : List UInt8)
  /-- The symbols of a table. -/
  | symbols (found : List SymbolRecord)

namespace Finding

/-- The references found. -/
def referencesFound : Finding → List Reference
  | references found => found
  | _ => []

/-- The symbols found. -/
def symbolsFound : Finding → List SymbolRecord
  | symbols found => found
  | _ => []

/-- The bytes of the segment, if that is what was found. -/
def data? : Finding → Option (List UInt8)
  | segment _ data => some data
  | _ => none

/-- The number of bytes that the front of the segment declares, if that is what was found. -/
def declared? : Finding → Option Nat
  | segment head _ => some head.size
  | _ => none

end Finding

/-- In the bytes `w` a step finds something. -/
def Step.Finds (w : List UInt8) : Step → Finding → Prop
  | .header, .nothing => ∃ noise, Grammar.Opening w noise
  | .version, .nothing => w = [Envelope.currentVersion]
  | .dependencies, .nothing => ∃ names, w = names ++ [0] ∧ 0 ∉ names
  | .references, .references found => Grammar.Table Grammar.Reference w found
  | .dataSegment, .segment head data =>
    Grammar.InOrder [(Grammar.SegmentHead · head), (· = data)] w ∧ data.length = head.size
  | .symbols, .symbols found => Grammar.Table Grammar.SymbolRecord w found
  | .footer, .nothing => w = Envelope.closing
  | _, _ => False

/-- In bytes that stand one behind another the steps find something each. -/
inductive Finds : List Step → List UInt8 → List Finding → Prop where
  | nil : Finds [] [] []
  | cons {st : Step} {steps : List Step} {u v : List UInt8} {finding : Finding}
      {findings : List Finding} (head : st.Finds u finding) (tail : Finds steps v findings) :
      Finds (st :: steps) (u ++ v) (finding :: findings)

/-- The contents behind what was found. -/
def Contents.add (c : Contents) : Finding → Contents
  | .nothing => c
  | .references found => { c with references := c.references ++ found }
  | .segment _ data => { c with data }
  | .symbols found => c.addSymbols found

/-- The words of a step are those in which it finds something. -/
theorem Step.finds_of_word {c c' : Contents} {w : List UInt8} {st : Step}
    (h : st.Word c w c') : ∃ finding, st.Finds w finding ∧ c' = c.add finding := by
  cases st with
  | header | version | dependencies | footer => exact ⟨.nothing, h.1, h.2⟩
  | references =>
    obtain ⟨found, hfound, rfl⟩ := h
    exact ⟨.references found, hfound, rfl⟩
  | dataSegment =>
    obtain ⟨hints, data, hw, rfl⟩ := h
    exact ⟨.segment ⟨data.length, hints⟩ data, ⟨hw, rfl⟩, rfl⟩
  | symbols =>
    obtain ⟨found, hfound, rfl⟩ := h
    exact ⟨.symbols found, hfound, rfl⟩

/-- The segments that steps find have as many bytes as they declare. -/
theorem Finds.map_length_data {steps : List Step} {w : List UInt8} {findings : List Finding}
    (h : Finds steps w findings) :
    (findings.filterMap Finding.data?).map List.length = findings.filterMap Finding.declared? := by
  induction h with
  | nil => rfl
  | @cons st steps u v finding findings head _ ih =>
    cases finding with
    | segment front data =>
      have hlength : data.length = front.size := by
        cases st with
        | dataSegment => exact head.2
        | _ => exact head.elim
      simpa [Finding.data?, Finding.declared?, hlength] using ih
    | _ => exact ih

/-! ## What they find together -/

/-- References and symbols add up; the segment found last is the one that stays. -/
theorem foldl_add (c : Contents) (findings : List Finding) :
    findings.foldl Contents.add c =
      { references := c.references ++ findings.flatMap Finding.referencesFound
        symbols := c.symbols ++
          SymbolRecord.placeAll c.next (findings.flatMap Finding.symbolsFound)
        data := (findings.filterMap Finding.data?).getLastD c.data
        next := SymbolRecord.stopAll c.next (findings.flatMap Finding.symbolsFound) } := by
  induction findings generalizing c with
  | nil => simp [SymbolRecord.placeAll, SymbolRecord.stopAll]
  | cons finding findings ih =>
    rw [List.foldl_cons, ih]
    cases finding with
    | nothing => rfl
    | references found => simp [Contents.add, Finding.referencesFound, Finding.symbolsFound,
        Finding.data?]
    | segment head data =>
      have hdata : (Finding.segment head data :: findings).filterMap Finding.data? =
          data :: findings.filterMap Finding.data? := rfl
      rw [hdata, List.getLastD_cons]
      rfl
    | symbols found =>
      simp [Contents.add, Contents.addSymbols, Finding.referencesFound, Finding.symbolsFound,
        Finding.data?, SymbolRecord.placeAll_append, SymbolRecord.stopAll]

/-- A course of steps without a fault reads bytes in which the steps find something each, and
adds up what they find. -/
theorem finds_of_course {s : Session} {steps : List Step}
    (h : (s.course steps).2.reader.failure = none) :
    ∃ w findings,
      s.reader.input.signals = w.map .byte ++ (s.course steps).2.reader.input.signals ∧
        Finds steps w findings ∧
        (s.course steps).2.contents = findings.foldl Contents.add s.contents := by
  induction steps generalizing s with
  | nil => exact ⟨[], [], rfl, .nil, rfl⟩
  | cons st steps ih =>
    rw [course_cons] at h ⊢
    have hok : (step st s).1 = .ok () := by
      rw [fst_step, Reader.check_eq_ok_iff]
      exact ((failure_course_eq_none_iff _ steps).1 h).1
    obtain ⟨u, hu, hword⟩ := word_of_step (Prod.ext hok rfl)
    obtain ⟨finding, hfinding, hcontents⟩ := Step.finds_of_word hword
    obtain ⟨v, findings, hv, hfindings, hend⟩ := ih h
    refine ⟨u ++ v, finding :: findings, ?_, .cons hfinding hfindings, ?_⟩
    · rw [hu, hv, List.map_append, List.append_assoc]
    · rw [hend, hcontents, List.foldl_cons]

/-! ## What is so at any time -/

/-- The empty reference stands first, and symbols are regular. -/
structure Contents.Sound (c : Contents) : Prop where
  references : ∃ found, c.references = ⟨"", 0⟩ :: found
  symbols : ∀ s ∈ c.symbols, s.Regular

namespace Contents.Sound

variable {c c' : Contents} {st : Step}

theorem empty : Sound {} := ⟨⟨[], rfl⟩, by simp⟩

/-- A step keeps contents sound, whether it succeeds or fails. -/
theorem effect (h : c.Sound) (heffect : st.Effect c c') : c'.Sound := by
  obtain ⟨⟨found, hfound⟩, hsymbols⟩ := h
  cases st with
  | references =>
    obtain ⟨more, rfl⟩ := heffect
    exact ⟨⟨found ++ more, by simp [hfound]⟩, hsymbols⟩
  | dataSegment =>
    obtain rfl | ⟨data, -, rfl⟩ := heffect <;> exact ⟨⟨found, hfound⟩, hsymbols⟩
  | symbols =>
    obtain ⟨more, rfl⟩ := heffect
    refine ⟨⟨found, hfound⟩, fun s hs => ?_⟩
    obtain hs | hs := List.mem_append.1 hs
    · exact hsymbols s hs
    · exact SymbolRecord.regular_of_mem_placeAll hs
  | _ => exact heffect ▸ ⟨⟨found, hfound⟩, hsymbols⟩

end Contents.Sound

theorem sound_course (events : List Event) (steps : List Step) :
    ((ofEvents events).course steps).2.contents.Sound :=
  course_induction (fun _ _ _ h heffect => h.effect heffect) .empty steps

/-- The entry that a table of references makes counts all references but the first one. -/
theorem journal_references {s t : Session} (h : step .references s = (.ok (), t)) :
    t.journal.getLast? = some (.references (t.references.length - 1)) := by
  rw [step, bind_apply, read_apply] at h
  generalize s.reader.attempt (.records .references .reference) = r at h
  obtain ⟨fault | ⟨found, fault | _⟩, r⟩ := r
  · cases h
  · cases h
  · obtain rfl := congrArg Prod.snd h
    exact List.getLast?_concat

end Session

/-- An object holds just what was found: all references, behind the empty one, all symbols,
and the segment that was found last, with as many bytes as that one declares. -/
structure Object.Holds (o : Object) (findings : List Session.Finding) : Prop where
  references : o.references.toList = ⟨"", 0⟩ :: findings.flatMap Session.Finding.referencesFound
  symbols : o.symbols =
    SymbolRecord.placeAll 0 (findings.flatMap Session.Finding.symbolsFound)
  regular : ∀ s ∈ o.symbols, s.Regular
  data : o.data = (findings.filterMap Session.Finding.data?).getLastD []
  length : o.data.length = (findings.filterMap Session.Finding.declared?).getLastD 0

namespace Session

theorem holds_of_finds {steps : List Step} {w : List UInt8} {findings : List Finding}
    (h : Finds steps w findings) : (findings.foldl Contents.add {}).object.Holds findings := by
  rw [foldl_add]
  refine ⟨rfl, rfl, fun s hs => SymbolRecord.regular_of_mem_placeAll hs, rfl, ?_⟩
  show ((findings.filterMap Finding.data?).getLastD []).length = _
  rw [← h.map_length_data, List.getLastD_eq_getLast?, List.getLastD_eq_getLast?, List.getLast?_map]
  exact (Option.getD_map List.length [] _).symm

theorem holds_of_result {events : List Event} {steps : List Step} {o : Object} {u : Session}
    (h : result ((ofEvents events).course steps).2 = (.ok o, u)) :
    ∃ w findings,
      (ofEvents events).reader.input.signals = w.map .byte ++ u.reader.input.signals ∧
        Finds steps w findings ∧ o.Holds findings := by
  obtain ⟨hnone, rfl, rfl⟩ := result_eq_ok_iff.1 h
  obtain ⟨w, findings, hw, hfindings, hcontents⟩ := finds_of_course hnone
  refine ⟨w, findings, hw, hfindings, ?_⟩
  rw [hcontents]
  exact holds_of_finds hfindings

/-- In every session, whatever the device brings, whatever the steps were and whether they
failed, the empty reference stands first, so that the count of the others is right, and
symbols are regular.  When there is a result, of the steps taken so far or of these and the
reading of a whole file, it holds just what the steps found in the bytes taken. -/
theorem object_holds (events : List Event) (steps : List Step) :
    let s := ofEvents events
    let t := (s.course steps).2
    t.contents.Sound ∧
    (∀ u, step .references t = (.ok (), u) →
      ∃ n, u.journal.getLast? = some (.references n) ∧ u.references.length = n + 1) ∧
    (∀ o u, result t = (.ok o, u) → ∃ w findings,
      s.reader.input.signals = w.map .byte ++ u.reader.input.signals ∧
        Finds steps w findings ∧ o.Holds findings) ∧
    ∀ o u, decode t = (.ok o, u) → ∃ w findings,
      s.reader.input.signals = w.map .byte ++ u.reader.input.signals ∧
        Finds (steps ++ pipeline) w findings ∧ o.Holds findings := by
  intro s t
  refine ⟨sound_course events steps, fun u hu => ?_, fun o u => holds_of_result, fun o u h => ?_⟩
  · obtain ⟨found, hfound⟩ :=
      ((sound_course events steps).effect (effect_step .references t)).references
    rw [hu] at hfound
    refine ⟨found.length, ?_, congrArg List.length hfound⟩
    rw [journal_references hu, show u.references = _ from hfound]
    rfl
  · rw [decode_eq_result, snd_course_course] at h
    exact holds_of_result h

/-- Two tables of references, two segments and a function, with no envelope around them. -/
theorem object_holds_repeated :
    let s := ofEvents
      [.data [0xFE, 2, 0x61, 2, 0xFF], .data [4, 0, 0, 0, 0, 0, 7, 8],
        .data [0xFE, 2, 0x62, 4, 0xFF], .data [2, 0, 0, 0, 0, 0, 9],
        .data [0xFE, 1, 2, 0, 0, 0, 2, 0, 0, 0, 0, 0, 0, 0, 0, 0, 0, 0, 2, 4, 6, 0, 0, 0xFF]]
    let steps : List Step := [.references, .dataSegment, .references, .dataSegment, .symbols]
    let t := (s.course steps).2
    result t = (.ok t.contents.object, t) ∧
      t.contents.object.references.toList = [⟨"", 0⟩, ⟨"a", 1⟩, ⟨"b", 2⟩] ∧
      t.contents.object.data = [9] ∧
      ∃ w findings,
        s.reader.input.signals = w.map .byte ++ t.reader.input.signals ∧
          Finds steps w findings ∧ t.contents.object.Holds findings := by
  intro s steps t
  have hfailure : t.reader.failure = none := by decide +kernel
  have hresult : result t = (.ok t.contents.object, t) := result_eq_ok_iff.2 ⟨hfailure, rfl, rfl⟩
  exact ⟨hresult, by decide +kernel, by decide +kernel,
    (object_holds _ steps).2.2.1 _ _ hresult⟩

end Session

end ObjectFile
