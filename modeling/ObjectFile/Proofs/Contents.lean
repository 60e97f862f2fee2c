import ObjectFile.Proofs.Acceptance
import ObjectFile.Proofs.FirstFault
/-!
# What steps do to the contents

A step that succeeds has read one of its words and leaves what that word makes of the
contents (`Session.word_of_step`).  A step that fails may have changed the contents as well,
since the records in front of the fault are kept.  `Session.Step.Effect` says what a step can
do to the contents in either case, whatever the session is and whatever the device brings; so
a property of contents that no effect destroys holds behind every course of steps
(`Session.course_induction`).
-/

namespace ObjectFile

/-- A length that was read is one of 63 bits. -/
theorem Grammar.Length.lt {w : List UInt8} {size : Nat} (h : Grammar.Length w size) :
    size < 2 ^ 63 := by
  obtain ⟨n, hn, -⟩ := h
  have hlt := n.toInt_lt
  omega

namespace Session

variable {α β : Type} {s t : Session} {st : Step}

/-- What a step can do to the contents, whether it succeeds or fails. -/
def Step.Effect (c c' : Contents) : Step → Prop
  | .references => ∃ found, c' = { c with references := c.references ++ found }
  | .dataSegment => c' = c ∨ ∃ data : List UInt8, data.length < 2 ^ 63 ∧ c' = { c with data }
  | .symbols => ∃ found, c' = c.addSymbols found
  | .header | .version | .dependencies | .footer => c' = c

/-- Reading leaves the contents alone, and what follows it is done only if there is a value. -/
theorem contents_read_bind {Q : Contents → Prop} {p : Parser α} {f : α → Action β}
    (hfail : Q s.contents)
    (hok : ∀ x i t, p.run s.reader.input = (.ok x, i) → t.reader.input = i →
      t.contents = s.contents → Q (f x t).2.contents) :
    Q ((read p >>= f) s).2.contents := by
  rw [bind_apply, read_apply, Reader.attempt]
  cases s.reader.failure with
  | some first => exact hfail
  | none =>
    rcases hrun : p.run s.reader.input with ⟨fault | x, i⟩
    · exact hfail
    · exact hok x i _ hrun rfl rfl

theorem effect_step (st : Step) (s : Session) : st.Effect s.contents (step st s).2.contents := by
  cases st with
  | header => exact contents_read_bind (Q := (· = s.contents)) rfl fun _ _ _ _ _ ht => ht
  | version => exact contents_read_bind (Q := (· = s.contents)) rfl fun _ _ _ _ _ ht => ht
  | dependencies => exact contents_read_bind (Q := (· = s.contents)) rfl fun _ _ _ _ _ ht => ht
  | footer => exact contents_read_bind (Q := (· = s.contents)) rfl fun _ _ _ _ _ ht => ht
  | references =>
    refine contents_read_bind (Q := (Step.Effect s.contents · .references)) ⟨[], by simp⟩ ?_
    rintro ⟨found, outcome⟩ i t - - ht
    refine ⟨found, ?_⟩
    rw [← ht]
    cases outcome <;> rfl
  | symbols =>
    refine contents_read_bind (Q := (Step.Effect s.contents · .symbols)) ⟨[], ?_⟩ ?_
    · simp [Contents.addSymbols, SymbolRecord.placeAll, SymbolRecord.stopAll]
    rintro ⟨found, outcome⟩ i t - - ht
    refine ⟨found, ?_⟩
    rw [← ht]
    cases outcome <;> rfl
  | dataSegment =>
    refine contents_read_bind (Q := (Step.Effect s.contents · .dataSegment)) (.inl rfl) ?_
    intro head i t hhead _ ht
    -- the block has as many bytes as the front of the segment says
    obtain ⟨w, -, hw⟩ := Parser.accepts_of_run hhead
    rw [Parser.accepts_segmentHead] at hw
    obtain ⟨_, _, -, hsize, -⟩ := hw
    refine contents_read_bind (Q := (Step.Effect s.contents · .dataSegment)) (.inl ht) ?_
    intro bytes j u hbytes _ hu
    rw [Parser.block_eq_take] at hbytes
    have hcontents : u.contents = s.contents := hu.trans ht
    refine .inr ⟨bytes, ?_, congrArg (fun c => { c with data := bytes }) hcontents⟩
    rw [Input.length_of_take hbytes]
    exact hsize.lt

/-- A step that succeeds has read one of its words. -/
theorem word_of_step (h : step st s = (.ok (), t)) :
    ∃ w, s.reader.input.signals = w.map .byte ++ t.reader.input.signals ∧
      st.Word s.contents w t.contents := by
  have hs : s.reader.failure = none := by
    apply failure_eq_none_of_step
    rw [h]
    exact failure_of_step_ok h
  have hmirrors := mirrors_step st s hs
  rw [h, Parser.run_map] at hmirrors
  rcases hrun : (st.parser s.contents).run s.reader.input with ⟨fault | c, i⟩
  · rw [hrun] at hmirrors
    obtain ⟨_, hfail, -⟩ := hmirrors
    cases hfail
  · rw [hrun] at hmirrors
    obtain ⟨_, hok, hreader, hcontents⟩ := hmirrors
    cases hok
    obtain ⟨w, hw, haccepts⟩ := Parser.accepts_of_run hrun
    refine ⟨w, ?_, ?_⟩
    · rw [hw, hreader]
    · rw [hcontents]
      exact Step.accepts_iff_word.1 haccepts

/-- What holds of contents and outlasts every effect holds behind every course of steps. -/
theorem course_induction {I : Contents → Prop}
    (hstep : ∀ st c c', I c → Step.Effect c c' st → I c') (hs : I s.contents)
    (steps : List Step) : I (s.course steps).2.contents := by
  induction steps generalizing s with
  | nil => exact hs
  | cons st steps ih => exact ih (hstep st _ _ hs (effect_step st s))

end Session

end ObjectFile
