import ObjectFile.Command
import ObjectFile.Proofs.Pipeline
/-!
# How bytes are delivered

A device may deliver the same bytes in pieces of any sizes and be interrupted at any places
(`Event.Delivers`).  Inputs that differ only in this are alike (`Input.Alike`), and every
parser of this library does the same with alike inputs (`Parser.Uniform`).  So readers and
sessions that are alike stay so whatever is asked of them, and all that can be seen of them
is the same.
-/

namespace ObjectFile

/-! ## Deliveries -/

/-- The deliveries bring these bytes, cut into pieces of any sizes, with interruptions at any
places. -/
inductive Event.Delivers : List Event → List UInt8 → Prop where
  | done : Delivers [] []
  | data (piece : List UInt8) {events : List Event} {bytes : List UInt8}
      (rest : Delivers events bytes) : Delivers (.data piece :: events) (piece ++ bytes)
  | interrupted (message : String) {events : List Event} {bytes : List UInt8}
      (rest : Delivers events bytes) : Delivers (.failure .interrupted message :: events) bytes

theorem Event.Delivers.signals_eq {events : List Event} {s : List UInt8}
    (h : Delivers events s) : events.flatMap Event.signals = s.map .byte := by
  induction h with
  | done => rfl
  | data piece _ ih => rw [List.flatMap_cons, ih, List.map_append, Event.signals]
  | interrupted message _ ih => simpa [Event.signals] using ih

/-- A buffer that hands on the bytes, the failures and the ends of data in their order. -/
def Event.HandsOn (buffer : List Event → List Event) : Prop :=
  ∀ events, (buffer events).flatMap Event.signals = events.flatMap Event.signals

theorem Event.signals_pieces_go (size : Nat) (cut : List Event) (fuel : Nat)
    (rest : List UInt8) :
    (pieces.go size cut fuel rest).flatMap Event.signals =
      cut.reverse.flatMap Event.signals ++ rest.map .byte := by
  induction fuel generalizing cut rest with
  | zero => simp [pieces.go, Event.signals]
  | succ fuel ih =>
    rw [pieces.go]
    split
    · simp [Event.signals]
    · rw [ih]
      simp [Event.signals]

/-- Bringing fewer bytes at a time hands on everything. -/
theorem Event.handsOn_limit (size : Nat) : HandsOn (limit size) := by
  intro events
  induction events with
  | nil => rfl
  | cons event events ih =>
    rw [limit, List.flatMap_cons, List.flatMap_append, List.flatMap_cons, ← limit, ih]
    cases event with
    | data bytes => exact congrArg (· ++ _) (signals_pieces_go size [] bytes.length bytes)
    | endOfData => rfl
    | failure kind message => simp

/-! ## Readers -/

namespace Reader

variable {α : Type}

/-- The readers differ at most in how the bytes still to come are delivered. -/
structure Alike (r t : Reader) : Prop where
  input : Input.Alike r.input t.input
  failure : r.failure = t.failure

/-- What is seen of two readers is the same, and they stay alike. -/
theorem Alike.attempt {r t : Reader} (h : Alike r t) {p : Parser α} (hp : p.Uniform) :
    (r.attempt p).1 = (t.attempt p).1 ∧ Alike (r.attempt p).2 (t.attempt p).2 := by
  obtain ⟨hout, hinput⟩ := hp r.input t.input h.input
  simp only [Reader.attempt, ← h.failure]
  cases hf : r.failure with
  | some fault => exact ⟨rfl, h⟩
  | none =>
    rcases hr : p.run r.input with ⟨fault | a, i⟩ <;>
      rcases ht : p.run t.input with ⟨fault' | a', j⟩ <;> rw [hr, ht] at hout hinput <;>
      cases hout <;> exact ⟨rfl, hinput, rfl⟩

theorem Alike.failWith {r t : Reader} (h : Alike r t) (fault : Fault) :
    Alike (r.failWith fault) (t.failWith fault) :=
  ⟨h.input, by rw [Reader.failWith, Reader.failWith, h.failure]⟩

/-- One request. -/
theorem Alike.perform {r t : Reader} (h : Alike r t) (request : Request) :
    (r.perform request).1 = (t.perform request).1 ∧
      Alike (r.perform request).2 (t.perform request).2 := by
  have hfirm {α : Type} (p : Parser α) [p.Firm] := h.attempt (Parser.Firm.online (p := p)).uniform
  cases request with
  | check =>
    refine ⟨?_, h⟩
    show r.check.map _ = t.check.map _
    rw [Reader.check, Reader.check, h.failure]
  | failWith fault =>
    refine ⟨?_, h.failWith fault⟩
    show Except.error (r.failure.getD fault) = Except.error (t.failure.getD fault)
    rw [h.failure]
  -- all other requests run a parser
  | _ => exact hfirm _

/-- A whole course of requests. -/
theorem Alike.serve_eq {r t : Reader} (h : Alike r t) (requests : List Request) :
    r.serve requests = t.serve requests := by
  induction requests generalizing r t with
  | nil => rfl
  | cons request requests ih =>
    obtain ⟨hreply, hnext⟩ := h.perform request
    show ((r.perform request).1, (r.perform request).2.consumed) ::
      (r.perform request).2.serve requests = _
    rw [hreply, ih hnext, consumed, hnext.input.consumed_eq]
    rfl

end Reader

/-! ## Sessions -/

namespace Session

variable {α β : Type}

/-- The sessions differ at most in how the bytes still to come are delivered. -/
structure Alike (s t : Session) : Prop where
  reader : Reader.Alike s.reader t.reader
  eq : t = { s with reader := t.reader }

theorem Alike.consumed_eq {s t : Session} (h : Alike s t) : s.consumed = t.consumed :=
  h.reader.input.consumed_eq

/-- What comes of an action is the same for sessions that are alike, and these stay so. -/
def Respects (a : Action α) : Prop :=
  ∀ s t, Alike s t → (a s).1 = (a t).1 ∧ Alike (a s).2 (a t).2

theorem respects_read {p : Parser α} (hp : p.Uniform) : Respects (read p) := by
  intro s t h
  obtain ⟨hout, hreader⟩ := h.reader.attempt hp
  refine ⟨hout, hreader, ?_⟩
  show { t with reader := (t.reader.attempt p).2 } = { s with reader := (t.reader.attempt p).2 }
  rw [h.eq]

/-- A change that looks at the reader for nothing but the number of bytes taken. -/
theorem respects_modify {f : Session → Session}
    (hf : ∀ s r, r.consumed = s.reader.consumed →
      f { s with reader := r } = { f s with reader := r })
    (hreader : ∀ s, (f s).reader = s.reader) : Respects (modify f) := by
  intro s t h
  refine ⟨rfl, ?_, ?_⟩
  · show Reader.Alike (f s).reader (f t).reader
    rw [hreader, hreader]
    exact h.reader
  · show f t = { f s with reader := (f t).reader }
    rw [hreader, h.eq]
    exact hf s t.reader h.reader.input.consumed_eq.symm

theorem respects_conclude (outcome : Except Fault α) : Respects (conclude outcome) := by
  intro s t h
  cases outcome with
  | ok a => exact ⟨rfl, h⟩
  | error fault =>
    refine ⟨rfl, h.reader.failWith fault, ?_⟩
    show { t with reader := t.reader.failWith fault } =
      { s with reader := t.reader.failWith fault }
    rw [h.eq]

theorem respects_pure (a : α) : Respects (pure a) := fun _ _ h => ⟨rfl, h⟩

theorem Respects.bind {a : Action α} {f : α → Action β} (ha : Respects a)
    (hf : ∀ x, Respects (f x)) : Respects (a >>= f) := by
  intro s t h
  obtain ⟨hout, hnext⟩ := ha s t h
  rw [bind_apply, bind_apply]
  rcases hs : a s with ⟨fault | x, s'⟩ <;> rcases ht : a t with ⟨fault' | x', t'⟩ <;>
    rw [hs, ht] at hout hnext <;> cases hout
  · exact ⟨rfl, hnext⟩
  · exact hf x s' t' hnext

/-- One step. -/
theorem respects_step (st : Step) : Respects (step st) := by
  have hfirm {α : Type} (p : Parser α) [p.Firm] : Respects (read p) :=
    respects_read (Parser.Firm.online (p := p)).uniform
  cases st with
  | header =>
    refine (hfirm _).bind fun _ => respects_modify (fun s r h => ?_) fun _ => rfl
    rw [note, consumed, h]
    rfl
  | version => exact (hfirm _).bind fun _ => respects_modify (fun _ _ _ => rfl) fun _ => rfl
  | dependencies => exact (hfirm _).bind fun _ => respects_modify (fun _ _ _ => rfl) fun _ => rfl
  | references =>
    refine (respects_read (Parser.online_records _ _).uniform).bind fun r => ?_
    refine (respects_modify (f := addReferences r.1) (fun _ _ _ => rfl) fun _ => rfl).bind
      fun _ => (respects_conclude _).bind fun _ => ?_
    exact respects_modify (fun _ _ _ => rfl) fun _ => rfl
  | dataSegment =>
    refine (hfirm _).bind fun head => ?_
    refine (respects_modify (f := note (.segment head)) (fun _ _ _ => rfl) fun _ => rfl).bind
      fun _ => (hfirm _).bind fun _ => ?_
    exact respects_modify (fun _ _ _ => rfl) fun _ => rfl
  | symbols =>
    refine (respects_read (Parser.online_records _ _).uniform).bind fun r => ?_
    refine (respects_modify (f := addSymbols r.1) (fun _ _ _ => rfl) fun _ => rfl).bind
      fun _ => (respects_conclude _).bind fun _ => ?_
    exact respects_modify (fun _ _ _ => rfl) fun _ => rfl
  | footer =>
    refine (hfirm _).bind fun _ => respects_modify (fun s r h => ?_) fun _ => rfl
    rw [note, consumed, h]
    rfl

theorem respects_forM_step (steps : List Step) : Respects (steps.forM step) := by
  induction steps with
  | nil => exact respects_pure ()
  | cons st steps ih => exact (respects_step st).bind fun _ => ih

theorem respects_result : Respects result := by
  intro s t h
  rw [result_eq, result_eq]
  refine ⟨?_, h⟩
  rw [Reader.check, Reader.check, ← h.reader.failure, h.eq]
  rfl

theorem respects_decode : Respects decode :=
  (respects_forM_step pipeline).bind fun _ => respects_result

/-- Takes steps one after another.  Gives what each of them came to, with the number of bytes
taken by then, and the session behind them. -/
def course (s : Session) : List Step → List (Except Fault Unit × Nat) × Session
  | [] => ([], s)
  | st :: steps =>
    let (outcome, t) := step st s
    let (outcomes, u) := t.course steps
    ((outcome, t.consumed) :: outcomes, u)

/-- A whole course of steps. -/
theorem Alike.course {s t : Session} (h : Alike s t) (steps : List Step) :
    (s.course steps).1 = (t.course steps).1 ∧ Alike (s.course steps).2 (t.course steps).2 := by
  induction steps generalizing s t with
  | nil => exact ⟨rfl, h⟩
  | cons st steps ih =>
    obtain ⟨hout, hnext⟩ := respects_step st s t h
    obtain ⟨houts, hend⟩ := ih hnext
    refine ⟨?_, hend⟩
    show ((step st s).1, (step st s).2.consumed) :: ((step st s).2.course steps).1 = _
    rw [hout, houts, hnext.consumed_eq]
    rfl

/-- What can be seen of a session: how many bytes it has taken and what it has read, its
journal, and what it comes to when it ends here and when it reads a whole object file from
here on. -/
def seen (s : Session) :
    Nat × Contents × List Journal.Entry × Except Fault Object × Except Fault Object × Nat :=
  (s.consumed, s.contents, s.journal, (result s).1, (decode s).1, (decode s).2.consumed)

theorem Alike.seen_eq {s t : Session} (h : Alike s t) : s.seen = t.seen := by
  obtain ⟨hdecode, hend⟩ := respects_decode s t h
  have hcontents : s.contents = t.contents := by
    rw [h.eq]
    rfl
  have hjournal : s.journal = t.journal := by rw [h.eq]
  rw [seen, seen, h.consumed_eq, hcontents, hjournal, (respects_result s t h).1, hdecode,
    hend.consumed_eq]

end Session

/-! ## Ways of delivering the same bytes -/

namespace Event

theorem alike_of_signals {events events' : List Event}
    (h : events.flatMap Event.signals = events'.flatMap Event.signals) :
    Session.Alike (.ofEvents events) (.ofEvents events') :=
  ⟨⟨⟨h, rfl⟩, rfl⟩, rfl⟩

/-- It makes no difference how bytes are delivered: requests to a reader are answered in the
same way and take as many bytes, the steps of a session come to the same and leave the same
behind, and the object file that the bytes are is read with the same outcome, through a
buffer as well as from the memory that holds a file. -/
theorem Delivers.same_outcomes {events : List Event} {s : List UInt8} (h : Delivers events s)
    {buffer : List Event → List Event} (hbuffer : HandsOn buffer) :
    (∀ requests, (Reader.ofEvents events).serve requests =
      (Reader.ofEvents [.data s]).serve requests) ∧
    (∀ steps,
      ((Session.ofEvents events).course steps).1 = ((Session.ofEvents [.data s]).course steps).1 ∧
      ((Session.ofEvents events).course steps).2.seen =
        ((Session.ofEvents [.data s]).course steps).2.seen) ∧
    (Object.decode (buffer events)).1 = (Object.decode [.data s]).1 ∧
    ∀ name, (Object.load name (.ok s)).1 = (Object.decode [.data s]).1 := by
  have hpiece : [Event.data s].flatMap Event.signals = s.map .byte := by simp [Event.signals]
  have hevents := alike_of_signals (h.signals_eq.trans hpiece.symm)
  have hbuffered := alike_of_signals ((hbuffer events).trans (h.signals_eq.trans hpiece.symm))
  refine ⟨hevents.reader.serve_eq, fun steps => ?_, ?_, fun name => rfl⟩
  · obtain ⟨houts, hend⟩ := hevents.course steps
    exact ⟨houts, hend.seen_eq⟩
  · exact (Session.respects_decode _ _ hbuffered).1

/-- A number that is cut in two, behind an interruption. -/
theorem Delivers.same_outcomes_varint :
    (Reader.ofEvents [.failure .interrupted "again", .data [0xC8], .data [0x01]]).serve [.varint] =
        (Reader.ofEvents [.data [0xC8, 0x01]]).serve [.varint] ∧
      (Object.decode (limit 8192 [.failure .interrupted "again", .data [0xC8], .data [0x01]])).1 =
        (Object.decode [.data [0xC8, 0x01]]).1 := by
  have hdelivers : Delivers [.failure .interrupted "again", .data [0xC8], .data [0x01]]
      [0xC8, 0x01] := .interrupted "again" (.data [0xC8] (.data [0x01] .done))
  obtain ⟨hserve, -, hdecode, -⟩ := hdelivers.same_outcomes (handsOn_limit 8192)
  exact ⟨hserve [.varint], hdecode⟩

end Event

end ObjectFile
