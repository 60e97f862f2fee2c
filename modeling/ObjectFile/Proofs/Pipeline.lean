import ObjectFile.Session
import ObjectFile.Proofs.Envelope
import ObjectFile.Proofs.Record
/-!
# Sessions as parsers

A session keeps its input, its first fault, its journal and what it has read so far.  Here
the last of these is split off (`Session.Contents`): as long as there was no fault, a step
does to the input and to the contents what a parser does that gives the new contents
(`Session.Step.parser`), and fails when that parser fails (`Session.mirrors_step`).

A run of steps is then a run of one parser, and so is the reading of a whole object file
(`Object.decode_eq`).
-/

namespace ObjectFile

theorem Parser.run_map {α β : Type} (f : α → β) (p : Parser α) (i : Input) :
    (f <$> p).run i = ((p.run i).1.map f, (p.run i).2) := by
  show (p >>= fun a => pure (f a)).run i = _
  rw [run_bind]
  rcases p.run i with ⟨fault | a, j⟩ <;> rfl

namespace Session

variable {α β : Type}

/-- What a session has read so far. -/
structure Contents where
  /-- The references so far, behind the empty one. -/
  references : List Reference := [.empty]
  /-- The symbols so far. -/
  symbols : List Symbol := []
  /-- The data segment. -/
  data : List UInt8 := []
  /-- The offset at which the next block begins. -/
  next : Int64 := 0

/-- What the session has read so far. -/
def contents (s : Session) : Contents := ⟨s.references, s.symbols, s.data, s.next⟩

/-- The object that has been read. -/
def Contents.object (c : Contents) : Object := ⟨c.references.toArray, c.symbols, c.data⟩

/-- The contents behind more symbols. -/
def Contents.addSymbols (c : Contents) (found : List SymbolRecord) : Contents :=
  { c with
    symbols := c.symbols ++ SymbolRecord.placeAll c.next found
    next := SymbolRecord.stopAll c.next found }

/-- Reads what a step reads, from given contents on; gives the contents behind the step. -/
def Step.parser (c : Contents) : Step → Parser Contents
  | .header => (fun _ => c) <$> Parser.header
  | .version => (fun _ => c) <$> Parser.version
  | .dependencies => (fun _ => c) <$> Parser.dependencies
  | .references =>
    (fun found => { c with references := c.references ++ found }) <$>
      Parser.table .references .reference
  | .dataSegment => do
    let head ← Parser.segmentHead
    let data ← Parser.block head.size
    return { c with data }
  | .symbols => c.addSymbols <$> Parser.table .symbols .symbolRecord
  | .footer => (fun _ => c) <$> Parser.footer

/-- Reads what steps read one after another. -/
def parser (c : Contents) : List Step → Parser Contents
  | [] => pure c
  | st :: steps => do
    let c ← st.parser c
    parser c steps

/-! ## Actions and parsers -/

theorem bind_apply (a : Action α) (f : α → Action β) (s : Session) :
    (a >>= f) s =
      match a s with
      | (.ok x, t) => f x t
      | (.error fault, t) => (.error fault, t) := by
  show ExceptT.bindCont f (a s).1 (a s).2 = _
  rcases a s with ⟨fault | x, t⟩ <;> rfl

theorem read_apply (p : Parser α) (s : Session) :
    read p s = ((s.reader.attempt p).1, { s with reader := (s.reader.attempt p).2 }) := rfl

/-- An action on a session without a fault does to its input and its contents what a parser
does, and fails when the parser fails. -/
def Mirrors (a : Action α) (p : Contents → Parser (α × Contents)) : Prop :=
  ∀ s, s.reader.failure = none →
    match (p s.contents).run s.reader.input with
    | (.ok (x, c), i) => ∃ t, a s = (.ok x, t) ∧ t.reader = ⟨i, none⟩ ∧ t.contents = c
    | (.error fault, i) => ∃ t, a s = (.error fault, t) ∧ t.reader = ⟨i, some fault⟩

theorem Mirrors.of_eq {a : Action α} {p q : Contents → Parser (α × Contents)}
    (h : Mirrors a p) (hq : ∀ c, p c = q c) : Mirrors a q :=
  funext hq ▸ h

theorem mirrors_pure (x : α) : Mirrors (pure x) fun c => pure (x, c) := by
  intro s hs
  refine ⟨s, rfl, ?_, rfl⟩
  rw [← hs]

theorem mirrors_read (p : Parser α) : Mirrors (read p) fun c => (·, c) <$> p := by
  intro s hs
  show match (p >>= fun x => pure (x, s.contents)).run s.reader.input with
    | (.ok (x, c), i) => _
    | (.error fault, i) => _
  rw [Parser.run_bind]
  have hread := read_apply p s
  rw [Reader.attempt, hs] at hread
  rcases hrun : p.run s.reader.input with ⟨fault | x, i⟩
  · rw [hrun] at hread
    exact ⟨_, hread, rfl⟩
  · rw [hrun] at hread
    exact ⟨_, hread, rfl, rfl⟩

/-- Changes that leave the reader alone. -/
theorem mirrors_modify {f : Session → Session} {g : Contents → Contents}
    (hreader : ∀ s, (f s).reader = s.reader) (hcontents : ∀ s, (f s).contents = g s.contents) :
    Mirrors (modify f) fun c => pure ((), g c) := by
  intro s hs
  refine ⟨f s, rfl, ?_, hcontents s⟩
  rw [hreader, ← hs]

theorem mirrors_conclude (outcome : Except Fault α) :
    Mirrors (conclude outcome) fun c => (·, c) <$> Parser.settle outcome := by
  intro s hs
  cases outcome with
  | ok x =>
    refine ⟨s, rfl, ?_, rfl⟩
    rw [← hs]
  | error fault =>
    refine ⟨_, rfl, ?_⟩
    rw [Reader.failWith, hs]
    rfl

theorem Mirrors.bind {a : Action α} {p : Contents → Parser (α × Contents)} {f : α → Action β}
    {q : α → Contents → Parser (β × Contents)} (ha : Mirrors a p) (hf : ∀ x, Mirrors (f x) (q x)) :
    Mirrors (a >>= f) fun c => p c >>= fun r => q r.1 r.2 := by
  intro s hs
  have h := ha s hs
  rw [Parser.run_bind, bind_apply]
  rcases hrun : (p s.contents).run s.reader.input with ⟨fault | ⟨x, c⟩, i⟩
  · rw [hrun] at h
    obtain ⟨t, hat, ht⟩ := h
    rw [hat]
    exact ⟨t, rfl, ht⟩
  · rw [hrun] at h
    obtain ⟨t, hat, ht, rfl⟩ := h
    rw [hat]
    -- the session behind the first action has no fault either
    have hnext := hf x t (by rw [ht])
    rw [ht] at hnext
    exact hnext

/-! ## Steps -/

/-- Steps that leave the contents alone. -/
theorem mirrors_read_note (p : Parser α) {f : α → Session → Session}
    (hreader : ∀ x s, (f x s).reader = s.reader)
    (hcontents : ∀ x s, (f x s).contents = s.contents) :
    Mirrors (read p >>= fun x => modify (f x)) fun c => ((), ·) <$> (fun _ => c) <$> p := by
  refine ((mirrors_read p).bind fun x => mirrors_modify (g := id) (hreader x) (hcontents x)).of_eq
    fun c => ?_
  simp

/-- Steps that read a table. -/
theorem mirrors_table {part : Section} {item : Parser α} {add : List α → Session → Session}
    {g : List α → Contents → Contents} {last : Session → Session}
    (hadd : ∀ found s, (add found s).reader = s.reader)
    (hcontents : ∀ found s, (add found s).contents = g found s.contents)
    (hlast : ∀ s, (last s).reader = s.reader) (hkeep : ∀ s, (last s).contents = s.contents) :
    Mirrors (do
        let (found, outcome) ← read (.records part item)
        modify (add found)
        conclude outcome
        modify last) fun c => ((), ·) <$> (g · c) <$> Parser.table part item := by
  have hfound (found : List α) (outcome : Except Fault Unit) :=
    (mirrors_modify (hadd found) (hcontents found)).bind fun _ =>
      (mirrors_conclude outcome).bind fun _ => mirrors_modify (g := id) hlast hkeep
  refine ((mirrors_read (.records part item)).bind fun r => hfound r.1 r.2).of_eq fun c => ?_
  simp [Parser.table]

theorem mirrors_step (st : Step) : Mirrors (step st) fun c => ((), ·) <$> st.parser c := by
  cases st with
  | header => exact mirrors_read_note _ (fun _ _ => rfl) fun _ _ => rfl
  | version => exact mirrors_read_note _ (fun _ _ => rfl) fun _ _ => rfl
  | dependencies => exact mirrors_read_note _ (fun _ _ => rfl) fun _ _ => rfl
  | references =>
    refine mirrors_table (g := fun found c => { c with references := c.references ++ found })
      ?_ ?_ ?_ ?_
    all_goals intros; rfl
  | dataSegment =>
    have hdata (head : SegmentHead) :=
      (mirrors_modify (f := note (.segment head)) (g := id) (fun _ => rfl) fun _ => rfl).bind
        fun _ => (mirrors_read (.block head.size)).bind fun bytes =>
          mirrors_modify (f := fun s => { s with data := bytes })
            (g := fun c => { c with data := bytes }) (fun _ => rfl) fun _ => rfl
    refine ((mirrors_read .segmentHead).bind hdata).of_eq fun c => ?_
    simp [Step.parser]
  | symbols =>
    refine mirrors_table (g := fun found c => c.addSymbols found) ?_ ?_ ?_ ?_
    all_goals intros; rfl
  | footer => exact mirrors_read_note _ (fun _ _ => rfl) fun _ _ => rfl

theorem mirrors_forM_step (steps : List Step) :
    Mirrors (steps.forM step) fun c => ((), ·) <$> parser c steps := by
  induction steps with
  | nil => exact (mirrors_pure ()).of_eq fun c => by simp [parser]
  | cons st steps ih =>
    refine ((mirrors_step st).bind fun _ => ih).of_eq fun c => ?_
    simp [parser]

theorem result_eq (s : Session) :
    result s = (s.reader.check.map fun _ => s.contents.object, s) := by
  unfold result ExceptT.mk
  dsimp only
  split
  all_goals
    rename_i h
    rw [h]
    rfl

theorem mirrors_result : Mirrors result fun c => pure (c.object, c) := by
  intro s hs
  refine ⟨s, ?_, ?_, rfl⟩
  · rw [result_eq, Reader.check, hs]
    rfl
  · rw [← hs]

theorem mirrors_decode :
    Mirrors decode fun c => (fun c => (c.object, c)) <$> parser c pipeline := by
  refine ((mirrors_forM_step pipeline).bind fun _ => mirrors_result).of_eq fun c => ?_
  simp

end Session

/-- The reading of an object file, as a parser for what has been read. -/
def Object.parser : Parser Session.Contents := Session.parser {} Session.pipeline

/-- What the parser of object files does is what is done to read one. -/
theorem Object.decode_run (events : List Event) :
    (Object.decode events).1 = (Object.parser.run ⟨events, 0⟩).1.map Session.Contents.object ∧
      (Object.decode events).2.reader.input = (Object.parser.run ⟨events, 0⟩).2 := by
  have h := Session.mirrors_decode (.ofEvents events) rfl
  have hrun : (Session.parser (Session.ofEvents events).contents Session.pipeline).run
      (Session.ofEvents events).reader.input = Object.parser.run ⟨events, 0⟩ := rfl
  simp only [Parser.run_map, hrun] at h
  generalize Object.parser.run ⟨events, 0⟩ = r at h ⊢
  obtain ⟨fault | c, i⟩ := r
  · obtain ⟨t, hdecode, ht⟩ := h
    rw [Object.decode, hdecode, ht]
    exact ⟨rfl, rfl⟩
  · obtain ⟨t, hdecode, ht, -⟩ := h
    rw [Object.decode, hdecode, ht]
    exact ⟨rfl, rfl⟩

theorem Object.decode_eq (events : List Event) :
    (Object.decode events).1 = (Object.parser.run ⟨events, 0⟩).1.map Session.Contents.object ∧
      (Object.decode events).2.consumed = (Object.parser.run ⟨events, 0⟩).2.consumed :=
  ⟨(decode_run events).1, congrArg Input.consumed (decode_run events).2⟩

/-- What comes of a string of bytes, and how many of them are taken. -/
def Object.ofBytes (s : List UInt8) : Except Fault Object × Nat :=
  ((Object.decode [.data s]).1, (Object.decode [.data s]).2.consumed)

theorem Object.ofBytes_eq (s : List UInt8) :
    ofBytes s = ((parser.run (.ofBytes s)).1.map Session.Contents.object,
      (parser.run (.ofBytes s)).2.consumed) := by
  obtain ⟨hout, hconsumed⟩ := decode_eq [.data s]
  rw [ofBytes, hout, hconsumed]
  rfl

/-! ## How the steps are stopped -/

namespace Session

instance (c : Contents) (st : Step) : (st.parser c).Firm := by
  cases st <;> unfold Step.parser <;> infer_instance

/-- Once the header is found, a step that is stopped fails with the fault that stopped it. -/
theorem Step.steady_of_ne (c : Contents) {st : Step} (h : st ≠ .header) :
    (st.parser c).Steady := by
  cases st with
  | header => exact absurd rfl h
  | _ =>
    unfold Step.parser
    infer_instance

instance (c : Contents) (steps : List Step) : (parser c steps).Firm := by
  induction steps generalizing c with
  | nil => exact inferInstanceAs (pure c : Parser Contents).Firm
  | cons st steps ih => exact inferInstanceAs (st.parser c >>= fun c => parser c steps).Firm

theorem steady_of_notMem (c : Contents) {steps : List Step} (h : .header ∉ steps) :
    (parser c steps).Steady := by
  induction steps generalizing c with
  | nil => exact inferInstanceAs (pure c : Parser Contents).Steady
  | cons st steps ih =>
    rw [List.mem_cons, not_or] at h
    have := Step.steady_of_ne c (Ne.symm h.1)
    have (c : Contents) := ih c h.2
    exact inferInstanceAs (st.parser c >>= fun c => parser c steps).Steady

end Session

instance : Object.parser.Firm := inferInstanceAs (Session.parser {} Session.pipeline).Firm

end ObjectFile
