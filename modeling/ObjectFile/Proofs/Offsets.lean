import ObjectFile.Proofs.Contents
/-!
# Where blocks begin

The file holds no offsets: a block begins where the sizes of the blocks before it have brought
the counter of the session, and sums wrap around.  The counter and the blocks of the symbols
read so far belong together (`Session.Contents.Aligned`), which every effect of a step keeps;
so it is no matter in how many tables the symbols were read, what other steps were taken in
between, and whether the last step failed.
-/

namespace ObjectFile

namespace Block

theorem stopAfter_eq_add_sum (start : Int64) (sizes : List Int64) :
    stopAfter start sizes = start + sizes.sum := by
  induction sizes generalizing start with
  | nil => simp
  | cons size sizes ih => rw [stopAfter_cons, ih, List.sum_cons, Int64.add_assoc]

end Block

namespace Session

/-- The blocks of all symbols lie one behind another from zero on, and the counter stands
behind the last of them. -/
structure Contents.Aligned (c : Contents) : Prop where
  blocks : Block.Placed (c.symbols.flatMap Symbol.blocks)
  next : c.next = ((c.symbols.flatMap Symbol.blocks).map Block.size).sum

namespace Contents.Aligned

variable {c : Contents}

theorem empty : Aligned {} := ⟨fun k h => by simp at h, rfl⟩

/-- The blocks of more symbols lie behind those before. -/
theorem addSymbols (h : c.Aligned) (found : List SymbolRecord) : (c.addSymbols found).Aligned := by
  have hblocks := Block.placed_iff.1 h.blocks
  have hnext : c.next = Block.stopAfter 0 ((c.symbols.flatMap Symbol.blocks).map Block.size) := by
    rw [h.next, Block.stopAfter_eq_add_sum, Int64.zero_add]
  have hall : (c.addSymbols found).symbols.flatMap Symbol.blocks =
      Block.consecutive 0
        ((c.symbols.flatMap Symbol.blocks).map Block.size ++ found.flatMap SymbolRecord.sizes) := by
    rw [Contents.addSymbols, List.flatMap_append, SymbolRecord.flatMap_blocks_placeAll,
      Block.consecutive_append, ← hblocks, ← hnext]
  constructor
  · rw [Block.placed_iff, hall, Block.map_size_consecutive]
  · rw [hall, Block.map_size_consecutive, List.sum_append, ← h.next]
    show SymbolRecord.stopAll c.next found = _
    rw [SymbolRecord.stopAll_eq, Block.stopAfter_eq_add_sum]

/-- No effect of a step but that of reading symbols concerns the blocks or the counter. -/
theorem effect {c' : Contents} {st : Step} (h : c.Aligned) (heffect : st.Effect c c') :
    c'.Aligned := by
  cases st with
  | references =>
    obtain ⟨found, rfl⟩ := heffect
    exact ⟨h.blocks, h.next⟩
  | dataSegment =>
    obtain rfl | ⟨data, -, rfl⟩ := heffect
    · exact h
    · exact ⟨h.blocks, h.next⟩
  | symbols =>
    obtain ⟨found, rfl⟩ := heffect
    exact h.addSymbols found
  | _ => exact heffect ▸ h

end Contents.Aligned

theorem next_of_effect {c c' : Contents} {st : Step} (hst : st ≠ .symbols)
    (heffect : st.Effect c c') : c'.next = c.next := by
  cases st with
  | references =>
    obtain ⟨found, rfl⟩ := heffect
    rfl
  | dataSegment =>
    obtain rfl | ⟨data, -, rfl⟩ := heffect <;> rfl
  | symbols => exact absurd rfl hst
  | _ => exact heffect ▸ rfl

/-- The blocks and the counter of every session that was begun in the ordinary way. -/
theorem aligned_course (events : List Event) (steps : List Step) :
    ((ofEvents events).course steps).2.contents.Aligned :=
  course_induction (fun _ _ _ h heffect => h.effect heffect) .empty steps

/-- In every session, whatever the device brings and whatever the steps were, the blocks of
the symbols lie one behind another.  As long as no step has failed, the counter is the sum of
the sizes of all of them.  Only the reading of symbols moves it, and only by the sizes of the
blocks that the records declare, not by anything else that stands in a record. -/
theorem offsets_course (events : List Event) (steps : List Step) :
    let t := ((ofEvents events).course steps).2
    Block.Placed (t.symbols.flatMap Symbol.blocks) ∧
    ((∀ outcome ∈ ((ofEvents events).course steps).1, outcome.1 = .ok ()) →
      t.next = ((t.symbols.flatMap Symbol.blocks).map Block.size).sum) ∧
    (∀ st, st ≠ .symbols → (step st t).2.next = t.next) ∧
    ∀ u, step .symbols t = (.ok (), u) →
      ∃ w found, t.reader.input.signals = w.map .byte ++ u.reader.input.signals ∧
        Grammar.Table Grammar.SymbolRecord w found ∧
        u.symbols = t.symbols ++ SymbolRecord.placeAll t.next found ∧
        u.next = t.next + (found.flatMap SymbolRecord.sizes).sum := by
  intro t
  have haligned := aligned_course events steps
  refine ⟨haligned.blocks, fun _ => haligned.next, fun st hst => ?_, fun u hu => ?_⟩
  · exact next_of_effect hst (effect_step st t)
  · obtain ⟨w, hw, found, hfound, hcontents⟩ := word_of_step hu
    refine ⟨w, found, hw, hfound, congrArg Contents.symbols hcontents, ?_⟩
    have hnext : u.next = SymbolRecord.stopAll t.next found := congrArg Contents.next hcontents
    rw [hnext, SymbolRecord.stopAll_eq, Block.stopAfter_eq_add_sum]

/-- Two tables of symbols, where the first block has the greatest size there is and the
counter wraps around behind the second one. -/
theorem offsets_course_wraps :
    let events : List Event :=
      [.data [0xFE, 2, 0, 0, 0, 0, 0xFE, 0xFF, 0xFF, 0xFF, 0xFF, 0xFF, 0xFF, 0xFF, 0xFF, 1, 0, 0xFF],
        .data [0xFE, 2, 0, 0, 0, 0, 10, 0, 0xFE, 2, 0, 0, 0, 0, 0, 0, 0xFF]]
    let t := ((ofEvents events).course [.symbols, .symbols]).2
    (∀ outcome ∈ ((ofEvents events).course [.symbols, .symbols]).1, outcome.1 = .ok ()) ∧
      t.symbols.map Symbol.block =
        [⟨Int64.maxValue, 0⟩, ⟨5, Int64.maxValue⟩, ⟨0, Int64.minValue + 4⟩] ∧
      t.next = Int64.minValue + 4 := by
  intro events t
  have hok : ∀ outcome ∈ ((ofEvents events).course [.symbols, .symbols]).1, outcome.1 = .ok () := by
    decide +kernel
  obtain ⟨-, hnext, -⟩ := offsets_course events [.symbols, .symbols]
  exact ⟨hok, by decide +kernel, (hnext hok).trans (by decide +kernel)⟩

end Session

end ObjectFile
