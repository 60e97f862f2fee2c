import ObjectFile.Proofs.Pipeline
import ObjectFile.Proofs.Placement
/-!
# What is read

Bytes are read successfully just if they begin with a word of a container, and then the
object is the one that the container is about.  Whatever follows the word is not looked at.

Each step of a session has words of its own (`Session.Step.Word`), which also say how the
contents of the session change; the steps of the pipeline in their order have the words of
containers (`Object.accepts_iff_file`).
-/

namespace ObjectFile

open Grammar (InOrder inOrder_nil inOrder_cons inOrder_last)

namespace Session.Step

/-- The words of a step from given contents on, and the contents behind it. -/
def Word (c : Contents) (w : List UInt8) (c' : Contents) : Step → Prop
  | .header => (∃ noise, Grammar.Opening w noise) ∧ c' = c
  | .version => w = [Envelope.currentVersion] ∧ c' = c
  | .dependencies => (∃ names, w = names ++ [0] ∧ 0 ∉ names) ∧ c' = c
  | .references => ∃ found, Grammar.Table Grammar.Reference w found ∧
      c' = { c with references := c.references ++ found }
  | .dataSegment => ∃ hints data,
      InOrder [(Grammar.SegmentHead · ⟨data.length, hints⟩), (· = data)] w ∧ c' = { c with data }
  | .symbols => ∃ found, Grammar.Table Grammar.SymbolRecord w found ∧ c' = c.addSymbols found
  | .footer => w = Envelope.closing ∧ c' = c

/-- A step accepts its words. -/
theorem accepts_iff_word {c c' : Contents} {w : List UInt8} {st : Step} :
    (st.parser c).Accepts w c' ↔ st.Word c w c' := by
  cases st with
  | header =>
    simp only [parser, Parser.accepts_map, Word, ← Parser.accepts_header]
    constructor
    · rintro ⟨_, h, rfl⟩
      exact ⟨h, rfl⟩
    · rintro ⟨h, rfl⟩
      exact ⟨_, h, rfl⟩
  | version =>
    simp only [parser, Parser.accepts_map, Word, Parser.accepts_version]
    constructor
    · rintro ⟨_, ⟨h, -⟩, rfl⟩
      exact ⟨h, rfl⟩
    · rintro ⟨h, rfl⟩
      exact ⟨_, ⟨h, rfl⟩, rfl⟩
  | dependencies =>
    simp only [parser, Parser.accepts_map, Word, Parser.accepts_dependencies]
    constructor
    · rintro ⟨_, ⟨names, hw, hnames, -⟩, rfl⟩
      exact ⟨⟨names, hw, hnames⟩, rfl⟩
    · rintro ⟨⟨names, hw, hnames⟩, rfl⟩
      exact ⟨_, ⟨names, hw, hnames, rfl⟩, rfl⟩
  | references =>
    simp only [parser, Parser.accepts_map, Parser.accepts_table, Parser.accepts_reference, Word]
  | dataSegment =>
    simp only [parser, Parser.accepts_bind, Parser.accepts_segmentHead, Parser.block_eq_take,
      Parser.accepts_take, Parser.accepts_pure, Word]
    constructor
    · rintro ⟨u, _, ⟨size, hints⟩, rfl, hu, v, _, data, rfl, ⟨rfl, rfl⟩, rfl, rfl⟩
      exact ⟨hints, data, ⟨u, _, rfl, hu, data, [], rfl, rfl, rfl⟩, rfl⟩
    · rintro ⟨hints, data, ⟨u, _, rfl, hu, v, _, rfl, hv, rfl⟩, rfl⟩
      obtain rfl : v = data := hv
      exact ⟨u, _, _, rfl, hu, v, [], v, rfl, ⟨rfl, rfl⟩, rfl, rfl⟩
  | symbols =>
    simp only [parser, Parser.accepts_map, Parser.accepts_table, Parser.accepts_symbolRecord,
      Word]
  | footer =>
    simp only [parser, Parser.accepts_map, Word, ← Parser.accepts_footer]
    constructor
    · rintro ⟨_, h, rfl⟩
      exact ⟨h, rfl⟩
    · rintro ⟨h, rfl⟩
      exact ⟨_, h, rfl⟩

end Session.Step

namespace Session

variable {c c' : Contents} {w : List UInt8}

theorem accepts_nil : (parser c []).Accepts w c' ↔ w = [] ∧ c' = c :=
  Parser.accepts_pure

/-- Steps accept their words one behind another. -/
theorem accepts_cons {st : Step} {steps : List Step} :
    (parser c (st :: steps)).Accepts w c' ↔
      ∃ u v d, w = u ++ v ∧ st.Word c u d ∧ (parser d steps).Accepts v c' := by
  simp only [← Step.accepts_iff_word]
  exact Parser.accepts_bind

end Session

/-- What has been read when a container has been. -/
def Container.contents (c : Container) : Session.Contents where
  references := .empty :: c.references
  symbols := SymbolRecord.placeAll 0 c.symbols
  data := c.data
  next := SymbolRecord.stopAll 0 c.symbols

namespace Object

open Session (Contents)

/-- The parser of object files accepts the words of containers. -/
theorem accepts_iff_file {w : List UInt8} {found : Contents} :
    parser.Accepts w found ↔ ∃ c, Grammar.File w c ∧ found = c.contents := by
  constructor
  · intro h
    obtain ⟨_, _, _, rfl, ⟨⟨noise, hnoise⟩, rfl⟩, h⟩ := Session.accepts_cons.1 h
    obtain ⟨_, _, _, rfl, ⟨hversion, rfl⟩, h⟩ := Session.accepts_cons.1 h
    obtain ⟨_, _, _, rfl, ⟨⟨names, hnames, hzero⟩, rfl⟩, h⟩ := Session.accepts_cons.1 h
    obtain ⟨_, _, _, rfl, ⟨references, hreferences, rfl⟩, h⟩ := Session.accepts_cons.1 h
    obtain ⟨_, _, _, rfl, ⟨hints, data, hsegment, rfl⟩, h⟩ := Session.accepts_cons.1 h
    obtain ⟨_, _, _, rfl, ⟨symbols, hsymbols, rfl⟩, h⟩ := Session.accepts_cons.1 h
    obtain ⟨_, _, _, rfl, ⟨hfooter, rfl⟩, h⟩ := Session.accepts_cons.1 h
    obtain ⟨rfl, rfl⟩ := Session.accepts_nil.1 h
    obtain ⟨_, _, rfl, hhead, _, _, rfl, hdata, rfl⟩ := hsegment
    refine ⟨⟨noise, names, references, hints, data, symbols, []⟩, ⟨hzero, ?_⟩, rfl⟩
    rw [List.append_nil, List.append_assoc]
    exact inOrder_cons hnoise <| inOrder_cons hversion <| inOrder_cons hnames <|
      inOrder_cons hreferences <| inOrder_cons hhead <| inOrder_cons hdata <|
      inOrder_cons hsymbols <| inOrder_cons hfooter inOrder_nil
  · rintro ⟨c, ⟨hzero, hw⟩, rfl⟩
    obtain ⟨_, _, rfl, hnoise, _, _, rfl, hversion, _, _, rfl, hnames, _, _, rfl, hreferences,
      _, _, rfl, hhead, _, _, rfl, hdata, _, _, rfl, hsymbols, _, _, rfl, hfooter, rfl⟩ := hw
    refine Session.accepts_cons.2 ⟨_, _, _, rfl, ⟨⟨_, hnoise⟩, rfl⟩, ?_⟩
    refine Session.accepts_cons.2 ⟨_, _, _, rfl, ⟨hversion, rfl⟩, ?_⟩
    refine Session.accepts_cons.2 ⟨_, _, _, rfl, ⟨⟨_, hnames, hzero⟩, rfl⟩, ?_⟩
    refine Session.accepts_cons.2 ⟨_, _, _, rfl, ⟨_, hreferences, rfl⟩, ?_⟩
    refine Session.accepts_cons.2 ⟨_, _, _, (List.append_assoc ..).symm,
      ⟨_, _, inOrder_cons hhead (inOrder_last hdata), rfl⟩, ?_⟩
    refine Session.accepts_cons.2 ⟨_, _, _, rfl, ⟨_, hsymbols, rfl⟩, ?_⟩
    refine Session.accepts_cons.2 ⟨_, _, _, rfl, ⟨hfooter, rfl⟩, ?_⟩
    exact Session.accepts_nil.2 ⟨rfl, rfl⟩

/-- A word of a container is read, whatever follows. -/
theorem ofBytes_of_file {w : List UInt8} {c : Container} (h : Grammar.File w c)
    (r : List UInt8) : ofBytes (w ++ r) = (.ok c.object, w.length) := by
  have hw : parser.Accepts w c.contents := accepts_iff_file.2 ⟨c, h, rfl⟩
  obtain ⟨hout, hconsumed⟩ := Parser.Decides.run_ofBytes hw r
  rw [ofBytes_eq, hout, hconsumed]
  rfl

/-- Bytes are read successfully just if they begin with a word of a container.  So many bytes
are taken as the word has, and the object is the one that the container describes. -/
theorem ofBytes_eq_ok_iff {s : List UInt8} {n : Nat} {o : Object} :
    ofBytes s = (.ok o, n) ↔
      n ≤ s.length ∧ ∃ c, Grammar.File (s.take n) c ∧ c.Describes o := by
  constructor
  · intro h
    rw [ofBytes_eq] at h
    obtain ⟨_, ⟨g, rfl⟩, hs⟩ | ⟨w, r, out, rfl, hw⟩ := Parser.Firm.online (p := parser) s
    -- a parser that is stopped does not succeed
    · rw [hs.run_ofBytes.1] at h
      cases h
    · obtain ⟨hout, hconsumed⟩ := hw.run_ofBytes r
      rw [hout, hconsumed] at h
      cases out with
      | error fault => cases h
      | ok found =>
        cases h
        obtain ⟨c, hc, rfl⟩ := accepts_iff_file.1 hw
        refine ⟨by simp, c, ?_, Container.describes_iff.2 rfl⟩
        rwa [List.take_left]
  · rintro ⟨hn, c, hc, ho⟩
    have hread := ofBytes_of_file hc (s.drop n)
    rw [List.take_append_drop, List.length_take, Nat.min_eq_left hn] at hread
    rw [hread, Container.describes_iff.1 ho]

end Object

end ObjectFile
