import ObjectFile.Proofs.Rounds
import ObjectFile.Proofs.Sections
/-!
# How much can be read

The counts in a file are whatever the file declares, up to `2 ^ 63 - 1`, and no count is compared
with the number of bytes that are left.  It need not be, for everything that is kept has at least
one byte of its own.  So an object that was read weighs at most as much as the bytes that were
taken for it.

This is a matter of the words of the format, where `Grammar.AtLeast` is shown of one kind of words
after the other.  A step then adds at most as much to the weight as it takes bytes
(`Session.Step.Finds.weight_add_le`), and so does a course of steps.  Together with what is known
of the loops it says that counts cannot inflate the result (`Session.counts_cannot_inflate`).
-/

namespace ObjectFile

/-! ## What is weighed -/

/-- The number of things that a function holds in its lists. -/
def Function.weight (f : Function) : Nat :=
  f.locals.length + f.auxTables.length + f.dataIds.length + f.dataOffsets.length +
    f.fileIds.length

/-- A symbol and the number of things that it holds in its lists. -/
def Symbol.weight (s : Symbol) : Nat :=
  1 + s.relocations.length + (s.function.map Function.weight).getD 0

/-- The number of references but for the empty one, of symbols with all that they hold, and of
bytes in the data segment. -/
def Object.weight (o : Object) : Nat :=
  (o.references.size - 1) + (o.symbols.map Symbol.weight).sum + o.data.length

/-- The same of what has been read so far. -/
def Session.Contents.weight (c : Contents) : Nat :=
  (c.references.length - 1) + (c.symbols.map Symbol.weight).sum + c.data.length

theorem Session.Contents.weight_object (c : Contents) : c.object.weight = c.weight := rfl

theorem Block.length_consecutive (start : Int64) (sizes : List Int64) :
    (consecutive start sizes).length = sizes.length := by
  rw [← List.length_map Block.size, map_size_consecutive]

/-- Where the blocks lie makes no difference. -/
theorem FunctionRecord.weight_place (f : FunctionRecord) (start : Int64) :
    (f.place start).weight = f.locals.length + f.auxTableSizes.length + f.data.length +
      f.data.length + f.fileIds.length := by
  simp [Function.weight, place, Block.length_consecutive]

namespace SymbolRecord

/-- The weight of the symbol of a record. -/
def weight (r : SymbolRecord) : Nat := (r.place 0).weight

theorem weight_place (r : SymbolRecord) (start : Int64) : (r.place start).weight = r.weight := by
  have hfunction (f : FunctionRecord) : (f.place (start + r.dataSize)).weight =
      (f.place (0 + r.dataSize)).weight := by
    rw [f.weight_place, f.weight_place]
  simp [weight, Symbol.weight, place, Function.comp_def, hfunction]

theorem map_weight_placeAll (start : Int64) (rs : List SymbolRecord) :
    (placeAll start rs).map Symbol.weight = rs.map weight := by
  induction rs generalizing start with
  | nil => rfl
  | cons r rs ih => rw [placeAll, List.map_cons, List.map_cons, ih, weight_place]

end SymbolRecord

/-! ## The least length of words -/

namespace Grammar

variable {α : Type} {item : List UInt8 → α → Prop} {part : List UInt8 → Prop}
  {parts : List (List UInt8 → Prop)} {w : List UInt8} {m n : Nat}

/-- Words of this kind have at least so many bytes. -/
def AtLeast (n : Nat) (part : List UInt8 → Prop) : Prop := ∀ w, part w → n ≤ w.length

theorem atLeast_zero (part : List UInt8 → Prop) : AtLeast 0 part := fun _ _ => Nat.zero_le _

theorem atLeast_cons (hpart : AtLeast m part) (hparts : AtLeast n (InOrder parts)) :
    AtLeast (m + n) (InOrder (part :: parts)) := by
  rintro _ ⟨u, v, rfl, hu, hv⟩
  rw [List.length_append]
  exact Nat.add_le_add (hpart u hu) (hparts v hv)

theorem AtLeast.mono (h : AtLeast n part) (hle : m ≤ n) : AtLeast m part :=
  fun w hw => hle.trans (h w hw)

theorem atLeast_eq (u : List UInt8) : AtLeast u.length (· = u) := by
  rintro _ rfl
  exact Nat.le_refl _

theorem atLeast_number (n : Int64) : AtLeast 1 (Number · n) := by
  rintro _ ⟨⟨front, last, rfl, -⟩, -⟩
  simp

/-- Words that begin with a number. -/
theorem atLeast_number_cons (n : Int64) (parts : List (List UInt8 → Prop)) :
    AtLeast 1 (InOrder ((Number · n) :: parts)) :=
  atLeast_cons (atLeast_number n) (atLeast_zero _)

/-! ### Lists -/

theorem atLeast_sequence {weight : α → Nat} (hitem : ∀ a, AtLeast (weight a) (item · a))
    (as : List α) : AtLeast (as.map weight).sum (Sequence item · as) := by
  intro w h
  induction h with
  | nil => exact Nat.le_refl _
  | cons head _ ih =>
    rw [List.map_cons, List.sum_cons, List.length_append]
    exact Nat.add_le_add (hitem _ _ head) ih

/-- A sequence has at least as many bytes as items. -/
theorem atLeast_sequence_length (hitem : ∀ a, AtLeast 1 (item · a)) (as : List α) :
    AtLeast as.length (Sequence item · as) := by
  have h := atLeast_sequence hitem as
  rwa [List.map_const', List.sum_replicate_nat, Nat.mul_one] at h

theorem atLeast_counted (hitem : ∀ a, AtLeast 1 (item · a)) (as : List α) :
    AtLeast as.length (Counted item · as) := by
  rintro w ⟨count, -, hw⟩
  have h := atLeast_cons (atLeast_number count)
    (atLeast_cons (atLeast_sequence_length hitem as) (atLeast_zero (InOrder [])))
  exact (h.mono (by omega)) w hw

theorem atLeast_functionData (data : List (Int64 × Int64)) :
    AtLeast (data.length + data.length) (FunctionData · data) := by
  rintro w ⟨count, -, hw⟩
  have h := atLeast_cons (atLeast_number count)
    (atLeast_cons (atLeast_sequence_length atLeast_number (data.map Prod.fst))
      (atLeast_cons (atLeast_sequence_length atLeast_number (data.map Prod.snd))
        (atLeast_zero (InOrder []))))
  rw [List.length_map, List.length_map] at h
  exact (h.mono (by omega)) w hw

/-! ### Records -/

theorem atLeast_relocation (r : ObjectFile.Relocation) : AtLeast 1 (Relocation · r) :=
  atLeast_number_cons r.offset _

theorem atLeast_local (l : ObjectFile.Local) : AtLeast 1 (Local · l) :=
  atLeast_number_cons l.id _

theorem atLeast_functionRecord (f : ObjectFile.FunctionRecord) (start : Int64) :
    AtLeast (f.place start).weight (FunctionRecord · f) := by
  have h := atLeast_cons (atLeast_number f.args) <| atLeast_cons (atLeast_number f.frame) <|
    atLeast_cons (atLeast_number f.flags) <| atLeast_cons (atLeast_number f.noSplit) <|
    atLeast_cons (atLeast_counted atLeast_local f.locals) <|
    atLeast_cons (atLeast_number f.stackMapSize) <|
    atLeast_cons (atLeast_number f.fileTableSize) <|
    atLeast_cons (atLeast_number f.lineTableSize) <|
    atLeast_cons (atLeast_number f.inlineTableSize) <|
    atLeast_cons (atLeast_counted atLeast_number f.auxTableSizes) <|
    atLeast_cons (atLeast_functionData f.data) <|
    atLeast_cons (atLeast_counted atLeast_number f.fileIds) <|
    atLeast_zero (InOrder [(Counted InlinedCall · f.inlined)])
  rw [f.weight_place]
  exact h.mono (by omega)

theorem atLeast_functionPart (f : Option ObjectFile.FunctionRecord) (start : Int64) :
    AtLeast ((f.map fun f => (f.place start).weight).getD 0) (FunctionPart · f) := by
  cases f with
  | none => exact atLeast_zero _
  | some f => exact atLeast_functionRecord f start

/-- The symbol itself is weighed by the byte that stands for its kind. -/
theorem atLeast_symbolRecord (r : ObjectFile.SymbolRecord) :
    AtLeast r.weight (SymbolRecord · r) := by
  have h := atLeast_cons (atLeast_eq [r.kind.toByte]) <| atLeast_cons (atLeast_number r.id) <|
    atLeast_cons (atLeast_number r.flags) <| atLeast_cons (atLeast_number r.size) <|
    atLeast_cons (atLeast_number r.type) <| atLeast_cons (atLeast_number r.dataSize) <|
    atLeast_cons (atLeast_counted atLeast_relocation r.relocations) <|
    atLeast_cons (atLeast_functionPart r.function (0 + r.dataSize)) (atLeast_zero (InOrder []))
  have hweight : r.weight = 1 + r.relocations.length +
      (r.function.map fun f => (f.place (0 + r.dataSize)).weight).getD 0 := by
    simp [SymbolRecord.weight, Symbol.weight, SymbolRecord.place, Function.comp_def]
  rintro w ⟨-, hw⟩
  rw [hweight]
  exact (h.mono (by omega)) w hw

/-- The marker counts as well. -/
theorem atLeast_marked (h : AtLeast n part) : AtLeast (n + 1) (InOrder [(· = [recordMarker]), part]) :=
  (atLeast_cons (atLeast_eq [recordMarker]) (atLeast_cons h (atLeast_zero (InOrder [])))).mono
    (Nat.add_comm n 1).le

theorem AtLeast.table {as : List α} (h : AtLeast n (Sequence (Parser.Marked item) · as)) :
    AtLeast n (Table item · as) :=
  atLeast_cons h (atLeast_zero _)

end Grammar

namespace Session

/-! ## The weight of what was read -/

/-- What a step finds adds at most as much to the weight as the step takes bytes. -/
theorem Step.Finds.weight_add_le {st : Step} {w : List UInt8} {finding : Finding}
    (h : st.Finds w finding) (c : Contents) : (c.add finding).weight ≤ c.weight + w.length := by
  cases st with
  | header | version | dependencies | footer =>
    cases finding with
    | nothing => exact Nat.le_add_right _ _
    | _ => exact h.elim
  | references =>
    cases finding with
    | references found =>
      have hle := (Grammar.atLeast_sequence_length
        (fun r => Grammar.atLeast_marked (Grammar.atLeast_zero (Grammar.Reference · r)))
        found).table w h
      simp only [Contents.weight, Contents.add, List.length_append]
      omega
    | _ => exact h.elim
  | dataSegment =>
    cases finding with
    | segment head data =>
      have hle := Grammar.atLeast_cons (Grammar.atLeast_zero (Grammar.SegmentHead · head))
        (Grammar.atLeast_cons (Grammar.atLeast_eq data) (Grammar.atLeast_zero (Grammar.InOrder [])))
        w h.1
      simp only [Contents.weight, Contents.add]
      omega
    | _ => exact h.elim
  | symbols =>
    cases finding with
    | symbols found =>
      have hle := (Grammar.atLeast_sequence
        (fun r => (Grammar.atLeast_marked (Grammar.atLeast_symbolRecord r)).mono (Nat.le_succ _))
        found).table w h
      simp only [Contents.weight, Contents.add, Contents.addSymbols, List.map_append,
        List.sum_append, SymbolRecord.map_weight_placeAll]
      omega
    | _ => exact h.elim

/-- What the steps of a course find weighs at most as much as the bytes they take. -/
theorem Finds.weight_foldl_le {steps : List Step} {w : List UInt8} {findings : List Finding}
    (h : Finds steps w findings) (c : Contents) :
    (findings.foldl Contents.add c).weight ≤ c.weight + w.length := by
  induction h generalizing c with
  | nil => exact Nat.le_refl _
  | @cons st steps u v finding findings head _ ih =>
    have hhead := head.weight_add_le c
    have htail := ih (c.add finding)
    rw [List.foldl_cons, List.length_append]
    omega

/-! ## How far steps come -/

/-- As long as there was no fault, a step takes what its parser takes. -/
theorem input_step {s : Session} (hs : s.reader.failure = none) (st : Step) :
    (step st s).2.reader.input = ((st.parser s.contents).run s.reader.input).2 := by
  have h := mirrors_step st s hs
  rw [Parser.run_map] at h
  rcases hrun : (st.parser s.contents).run s.reader.input with ⟨fault | c, i⟩
  · rw [hrun] at h
    obtain ⟨t, ht, hreader⟩ := h
    rw [ht, hreader]
  · rw [hrun] at h
    obtain ⟨t, ht, hreader, -⟩ := h
    rw [ht, hreader]

/-- A step takes a front part of what is left, whether it succeeds or fails. -/
theorem advances_step (st : Step) (s : Session) :
    Input.Advances s.reader.input (step st s).2.reader.input := by
  cases hs : s.reader.failure with
  | some first =>
    rw [step_of_failure hs]
    exact .refl _
  | none =>
    rw [input_step hs]
    exact (st.parser s.contents).advances _

theorem advances_course (s : Session) (steps : List Step) :
    Input.Advances s.reader.input (s.course steps).2.reader.input := by
  induction steps generalizing s with
  | nil => exact .refl _
  | cons st steps ih => exact (advances_step st s).trans (ih _)

/-! ## The weight of objects -/

/-- An object weighs at most as much as the bytes taken for it, which are bytes that the device
brings. -/
theorem weight_of_result {events : List Event} {steps : List Step} {o : Object} {u : Session}
    (h : result ((ofEvents events).course steps).2 = (.ok o, u)) :
    o.weight ≤ u.consumed ∧ u.consumed ≤ (events.flatMap Event.payload).length := by
  obtain ⟨hnone, rfl, rfl⟩ := result_eq_ok_iff.1 h
  obtain ⟨w, findings, hw, hfindings, -⟩ := finds_of_course hnone
  have hs : (ofEvents events).Stands {} 0
      (w.map .byte ++ ((ofEvents events).course steps).2.reader.input.signals) :=
    ⟨⟨rfl, rfl, hw⟩, rfl⟩
  have hstands := hs.course hfindings
  constructor
  · have hweight := hfindings.weight_foldl_le {}
    rw [Contents.weight_object, hstands.contents_eq, Session.consumed, hstands.reader.consumed_eq]
    exact hweight.trans (by simp [Contents.weight])
  · have hadd := (advances_course (ofEvents events) steps).consumed_add
    have hstart : (ofEvents events).reader.input.consumed +
        (ofEvents events).reader.input.unread.length = (events.flatMap Event.payload).length :=
      Nat.zero_add _
    rw [hstart] at hadd
    exact Nat.le_of_add_right_le hadd.le

/-- Counts cannot inflate the result, whatever the device brings and whatever the steps are.

* A step always comes to an end, having taken a front part of the bytes that were left.
* In an object that is the result of a course of steps, or of reading a whole file behind one, the
  references, the symbols, all that they hold and the bytes of the data segment are together at
  most as many as the bytes that were taken.
* The loops over relocations, over variables, over the numbers that are sizes of tables, function
  data and files, and over inlined calls begin at most one round more than there are bytes left,
  whatever number of 64 bits the count is. -/
theorem counts_cannot_inflate (events : List Event) (steps : List Step) :
    let t := ((ofEvents events).course steps).2
    (∀ st, ∃ out u, step st t = (out, u) ∧ Input.Advances t.reader.input u.reader.input) ∧
    (∀ o u, result t = (.ok o, u) →
      o.weight ≤ u.consumed ∧ u.consumed ≤ (events.flatMap Event.payload).length) ∧
    (∀ o u, decode t = (.ok o, u) →
      o.weight ≤ u.consumed ∧ u.consumed ≤ (events.flatMap Event.payload).length) ∧
    Parser.relocation.EndsWithData ∧ Parser.localVariable.EndsWithData ∧
    Parser.varint.EndsWithData ∧ Parser.inlinedCall.EndsWithData := by
  intro t
  refine ⟨fun st => ⟨_, _, rfl, advances_step st t⟩, fun o u => weight_of_result, fun o u h => ?_,
    Parser.endsWithData _, Parser.endsWithData _, Parser.endsWithData _, Parser.endsWithData _⟩
  rw [decode_eq_result, snd_course_course] at h
  exact weight_of_result h

/-- A file with a function, and the greatest count there is with two bytes behind it. -/
theorem counts_cannot_inflate_sample :
    let events := [Event.data Container.sample.word]
    let t := ((ofEvents events).course pipeline).2
    let count : Int64 := Int64.maxValue
    decode (ofEvents events) = (.ok Container.sample.object, t) ∧
      Container.sample.object.weight = 12 ∧ t.consumed = 83 ∧
      Container.sample.object.weight ≤ t.consumed ∧
      Parser.varint.rounds count.toInt.toNat (.ofBytes [3, 4]) = 3 ∧
      Parser.varint.Begins count.toInt.toNat (.ofBytes [3, 4]) 3 := by
  intro events t count
  have hresult : result t = (.ok Container.sample.object, t) :=
    result_eq_ok_iff.2 ⟨by decide +kernel, by decide +kernel, rfl⟩
  have hdecode : decode (ofEvents events) = (.ok Container.sample.object, t) := by
    rw [decode_eq_result, hresult]
  have hrounds : Parser.varint.rounds count.toInt.toNat (.ofBytes [3, 4]) = 3 := by decide +kernel
  obtain ⟨-, -, hweight, -, -, hvarint, -⟩ := counts_cannot_inflate events []
  have hbegun := (hvarint count (.ofBytes [3, 4])).1
  rw [hrounds] at hbegun
  exact ⟨hdecode, by decide +kernel, by decide +kernel, (hweight _ _ hdecode).1, hrounds, hbegun⟩

end Session

end ObjectFile
