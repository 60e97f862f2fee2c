import ObjectFile.Proofs.Answers
import ObjectFile.Proofs.FirstFault
import ObjectFile.Proofs.Leading
/-!
# More bytes

Bytes are read, and then the same bytes with more of them behind.  Up to the end of the first
bytes both do the same.  So either they do the same altogether, or the first runs out of bytes
and the second takes bytes beyond them (`Session.Carries`).  The journal of the first is then a
front part of the journal of the second, as nothing is ever taken out of a journal.

This is so of every action of a session and outlasts their composition (`Session.Forward.bind`).
Only the reading of records is no such action: the first may run out of bytes in the middle of a
table and keep the records in front of that.  As the second finds these records too, the table as
a whole is one (`Session.forward_takeTable`).
-/

namespace ObjectFile

namespace Parser

variable {α : Type} {p : Parser α} {u r : List UInt8} {i k : Input}

/-- A parser that is stopped behind some bytes takes more of them if there are more. -/
theorem Stops.lt_consumed {E : (Fault → Except Fault α) → Prop} {f : Fault → Except Fault α}
    (hp : p.Online E) (hs : p.Stops u f) (hr : r ≠ []) (hk : k.signals = (u ++ r).map .byte) :
    k.consumed + u.length < (p.run k).2.consumed := by
  have hlength := List.length_pos_iff.2 hr
  obtain ⟨f', -, hs'⟩ | ⟨w, v, out, hw, hdecides⟩ := hp (u ++ r)
  · obtain ⟨l, hl, -, hc⟩ := hs'.run_eq hk
    rw [hl, hc, List.length_append]
    omega
  · -- a front part of the first bytes would not have been enough
    have hlt : u.length < w.length := by
      refine Nat.lt_of_not_le fun hle => ?_
      obtain ⟨x, rfl⟩ := List.prefix_of_prefix_length_le ⟨v, hw.symm⟩ ⟨r, rfl⟩ hle
      exact hs.not_decides hdecides
    rw [hw, List.map_append] at hk
    obtain ⟨l, hl, -, hc⟩ := hdecides.run_eq hk
    rw [hl, hc]
    omega

end Parser

namespace Session

variable {α β : Type} {n : Nat} {r : List UInt8} {s t u : Session}

/-! ## Two sessions -/

/-- Nothing has been taken out of the journal and no byte has been given back. -/
structure Leads (s t : Session) : Prop where
  journal : s.journal <+: t.journal
  consumed : s.consumed ≤ t.consumed

theorem Leads.refl (s : Session) : s.Leads s := ⟨List.prefix_rfl, Nat.le_refl _⟩

theorem Leads.trans (h : s.Leads t) (h' : t.Leads u) : s.Leads u :=
  ⟨h.journal.trans h'.journal, Nat.le_trans h.consumed h'.consumed⟩

/-- The sessions differ in nothing but what they are still to read: the second has the bytes `r`
behind those of the first, which end after `n` bytes. -/
structure Continues (n : Nat) (r : List UInt8) (s t : Session) : Prop where
  bytes : ∃ u : List UInt8, s.reader.input.signals = u.map .byte ∧
    t.reader.input.signals = (u ++ r).map .byte ∧ s.consumed + u.length = n
  consumed : s.consumed = t.consumed
  failure : s.reader.failure = t.reader.failure
  eq : t = { s with reader := t.reader }

/-- What comes of an action in two sessions: the same, or the first runs out of bytes. -/
def Carries (n : Nat) (r : List UInt8) (a : Action α) (s t : Session) : Prop :=
  (a s).1 = (a t).1 ∧ Continues n r (a s).2 (a t).2 ∨
    (∃ fault, (a s).1 = .error fault) ∧ (a s).2.journal <+: (a t).2.journal ∧ n < (a t).2.consumed

/-- An action that only ever goes on, and carries two sessions on. -/
structure Forward (n : Nat) (r : List UInt8) (a : Action α) : Prop where
  leads : ∀ s : Session, s.Leads (a s).2
  carries : ∀ s t, Continues n r s t → Carries n r a s t

/-! ## Actions -/

theorem forward_modify {f : Session → Session}
    (hf : ∀ s r, r.consumed = s.reader.consumed →
      f { s with reader := r } = { f s with reader := r })
    (hreader : ∀ s, (f s).reader = s.reader) (hjournal : ∀ s, s.journal <+: (f s).journal) :
    Forward n r (modify f) where
  leads s := ⟨hjournal s, Nat.le_of_eq (congrArg Reader.consumed (hreader s)).symm⟩
  carries s t h := by
    refine .inl ⟨rfl, ?_⟩
    show Continues n r (f s) (f t)
    refine ⟨?_, ?_, ?_, ?_⟩
    · rw [consumed, hreader, hreader]
      exact h.bytes
    · rw [consumed, consumed, hreader, hreader]
      exact h.consumed
    · rw [hreader, hreader]
      exact h.failure
    · rw [hreader, h.eq]
      exact hf s t.reader h.consumed.symm

theorem forward_conclude (outcome : Except Fault α) : Forward n r (conclude outcome) where
  leads s := by cases outcome <;> exact ⟨List.prefix_rfl, Nat.le_refl _⟩
  carries s t h := by
    cases outcome with
    | ok a => exact .inl ⟨rfl, h⟩
    | error fault =>
      refine .inl ⟨rfl, h.bytes, h.consumed, ?_, ?_⟩
      · show some (s.reader.failure.getD fault) = some (t.reader.failure.getD fault)
        rw [h.failure]
      · show { t with reader := t.reader.failWith fault } =
          { s with reader := t.reader.failWith fault }
        rw [h.eq]

theorem forward_result : Forward n r result where
  leads s := by
    rw [result_eq]
    exact .refl s
  carries s t h := by
    refine .inl ?_
    have hcontents : t.contents = s.contents := by rw [h.eq]; rfl
    rw [result_eq, result_eq, Reader.check, Reader.check, h.failure, hcontents]
    exact ⟨rfl, h⟩

theorem leads_bind {a : Action α} {f : α → Action β} (ha : ∀ s : Session, s.Leads (a s).2)
    (hf : ∀ x (s : Session), s.Leads (f x s).2) (s : Session) : s.Leads ((a >>= f) s).2 := by
  have h := ha s
  rw [bind_apply]
  rcases hs : a s with ⟨fault | x, t⟩ <;> rw [hs] at h
  · exact h
  · exact h.trans (hf x t)

theorem Carries.bind {a : Action α} {f : α → Action β} (ha : Carries n r a s t)
    (hf : ∀ x, Forward n r (f x)) : Carries n r (a >>= f) s t := by
  rw [Carries, bind_apply, bind_apply]
  obtain ⟨hout, hcontinues⟩ | ⟨⟨fault, hfault⟩, hjournal, htaken⟩ := ha
  · rcases hs : a s with ⟨fault | x, s'⟩ <;> rcases ht : a t with ⟨fault' | x', t'⟩ <;>
      rw [hs, ht] at hout hcontinues <;> cases hout
    · exact .inl ⟨rfl, hcontinues⟩
    · exact (hf x).carries s' t' hcontinues
  · -- the second may go on, and leads on from where it had taken more bytes
    rcases hs : a s with ⟨first | x, s'⟩ <;> rw [hs] at hfault hjournal <;> cases hfault
    rcases ht : a t with ⟨fault' | x', t'⟩ <;> rw [ht] at hjournal htaken
    · exact .inr ⟨⟨fault, rfl⟩, hjournal, htaken⟩
    · have hleads := (hf x').leads t'
      exact .inr ⟨⟨fault, rfl⟩, hjournal.trans hleads.journal,
        Nat.lt_of_lt_of_le htaken hleads.consumed⟩

theorem Forward.bind {a : Action α} {f : α → Action β} (ha : Forward n r a)
    (hf : ∀ x, Forward n r (f x)) : Forward n r (a >>= f) where
  leads := leads_bind ha.leads fun x => (hf x).leads
  carries s t h := (ha.carries s t h).bind hf

/-! ## Reading -/

/-- Reading only takes bytes. -/
theorem leads_read (p : Parser α) (s : Session) : s.Leads (read p s).2 := by
  refine ⟨List.prefix_rfl, ?_⟩
  show s.reader.consumed ≤ (s.reader.attempt p).2.consumed
  cases hfailure : s.reader.failure with
  | some fault => exact Nat.le_of_eq (by rw [Reader.attempt_of_failure hfailure])
  | none =>
    rw [Reader.attempt_of_run hfailure rfl]
    exact (p.advances s.reader.input).consumed_le

theorem failure_eq_none_of_read {p : Parser α} {a : α} (h : (read p s).1 = .ok a) :
    s.reader.failure = none := by
  cases hfailure : s.reader.failure with
  | none => rfl
  | some fault =>
    rw [read_apply, Reader.attempt_of_failure hfailure] at h
    cases h

/-- What an online parser reads in the two sessions: the same, unless it is stopped in the first and
takes more bytes in the second. -/
theorem Continues.read (h : Continues n r s t) (hr : r ≠ []) {p : Parser α}
    {E : (Fault → Except Fault α) → Prop} (hp : p.Online E) :
    Carries n r (read p) s t ∨
      ∃ f, E f ∧ (Session.read p s).1 = f (.truncated n) ∧ n < (Session.read p t).2.consumed := by
  obtain ⟨u, hs, ht, hn⟩ := h.bytes
  rw [Carries, read_apply, read_apply]
  cases hfailure : s.reader.failure with
  | some fault =>
    rw [Reader.attempt_of_failure hfailure, Reader.attempt_of_failure (h.failure ▸ hfailure)]
    exact .inl (.inl ⟨rfl, h⟩)
  | none =>
    have hfailure' : t.reader.failure = none := h.failure ▸ hfailure
    have hconsumed : s.reader.input.consumed = t.reader.input.consumed := h.consumed
    obtain ⟨f, hf, hstops⟩ | ⟨w, v, out, rfl, hw⟩ := hp u
    · refine .inr ⟨f, hf, ?_, ?_⟩
      · obtain ⟨j, hj, -, -⟩ := hstops.run_eq hs
        rw [Reader.attempt_of_run hfailure hj, ← hn]
        rfl
      · have hmore := hstops.lt_consumed hp hr ht
        rw [Reader.attempt_of_run hfailure' rfl, ← hn]
        rw [← hconsumed] at hmore
        exact hmore
    · rw [List.map_append] at hs
      rw [List.append_assoc, List.map_append] at ht
      obtain ⟨j, hj, hjs, hjc⟩ := hw.run_eq hs
      obtain ⟨k, hk, hks, hkc⟩ := hw.run_eq ht
      rw [Reader.attempt_of_run hfailure hj, Reader.attempt_of_run hfailure' hk]
      refine .inl (.inl ⟨rfl, ⟨v, hjs, hks, ?_⟩, ?_, rfl, ?_⟩)
      · rw [← hn, List.length_append, ← Nat.add_assoc]
        exact congrArg (· + v.length) hjc
      · show j.consumed = k.consumed
        rw [hjc, hkc, hconsumed]
      · rw [h.eq]

theorem forward_read (hr : r ≠ []) (p : Parser α) [hp : p.Firm] : Forward n r (read p) where
  leads := leads_read p
  carries s t h := by
    obtain hsame | ⟨_, ⟨f, rfl⟩, hstopped, htaken⟩ := h.read hr hp.online
    · exact hsame
    · refine .inr ⟨⟨_, hstopped⟩, ?_, htaken⟩
      rw [h.eq]
      exact List.prefix_rfl

/-! ## Tables -/

/-- Taking a table of records, of which those in front of a fault are kept. -/
def takeTable (part : Section) (item : Parser α) (add : List α → Session → Session)
    (last : Session → Session) : Action Unit := do
  let (found, outcome) ← read (.records part item)
  modify (add found)
  conclude outcome
  modify last

/-- Reading records gives all that lead the bytes, and the session has no fault of its own yet. -/
theorem read_records (part : Section) (item : Parser α) [item.Steady] {u : List UInt8}
    (hfailure : s.reader.failure = none) (hsignals : s.reader.input.signals = u.map .byte) :
    ∃ found outcome i v,
      read (.records part item) s = (.ok (found, outcome), { s with reader := ⟨i, none⟩ }) ∧
        Grammar.Leading (Parser.Marked item.Accepts) u found v := by
  obtain ⟨found, outcome, i, v, hrun, hleading⟩ := Parser.records_leading part item hsignals
  refine ⟨found, outcome, i, v, ?_, hleading⟩
  rw [read_apply, Reader.attempt_of_run hfailure hrun]
  rfl

theorem forward_takeTable (hr : r ≠ []) {part : Section} {item : Parser α} [item.Steady]
    {add : List α → Session → Session} {last : Session → Session}
    (hadd : ∀ found, Forward n r (modify (add found)))
    (hlast : Forward n r (modify last))
    (hmore : ∀ found more s reader,
      (add found s).journal <+: (add (found ++ more) { s with reader }).journal) :
    Forward n r (takeTable part item add last) := by
  have hrest (found : List α) (outcome : Except Fault Unit) :
      Forward n r (modify (add found) >>= fun _ => conclude outcome >>= fun _ => modify last) :=
    (hadd found).bind fun _ => (forward_conclude outcome).bind fun _ => hlast
  refine ⟨leads_bind (leads_read _) fun x => (hrest x.1 x.2).leads, fun s t h => ?_⟩
  obtain hsame | ⟨_, ⟨got, rfl⟩, hstopped, htaken⟩ := h.read hr (Parser.online_records part item)
  · exact hsame.bind fun x => hrest x.1 x.2
  · obtain ⟨u, hs, ht, -⟩ := h.bytes
    have hfailure : s.reader.failure = none := failure_eq_none_of_read hstopped
    -- the first keeps the records that it has got, and the second finds them as well
    obtain ⟨got', outcome, i, v, hread, hgot⟩ := read_records part item hfailure hs
    obtain ⟨found, outcome', k, v', hread', hfound⟩ :=
      read_records part item (h.failure ▸ hfailure) ht
    obtain ⟨more, rfl⟩ := hgot.prefix_append
      (Parser.unambiguous_marked (Parser.unambiguous_accepts item)) hfound
    have heq : { t with reader := ⟨k, none⟩ } = { s with reader := ⟨k, none⟩ } := by rw [h.eq]
    rw [heq] at hread'
    rw [hread] at hstopped
    cases hstopped
    rw [hread'] at htaken
    have hleads := ((forward_conclude outcome').bind fun _ => hlast).leads
      (add (got ++ more) { s with reader := ⟨k, none⟩ })
    have htaken' := ((hrest (got ++ more) outcome').leads { s with reader := ⟨k, none⟩ }).consumed
    rw [Carries, takeTable, bind_apply, bind_apply, hread, hread']
    exact .inr ⟨⟨_, rfl⟩, (hmore got more _ _).trans hleads.journal,
      Nat.lt_of_lt_of_le htaken htaken'⟩

/-! ## Steps -/

theorem forward_note (entry : Session → Journal.Entry)
    (hentry : ∀ s r, r.consumed = s.reader.consumed → entry { s with reader := r } = entry s) :
    Forward n r (modify fun s => s.note (entry s)) :=
  forward_modify (fun s r h => by rw [note, note, hentry s r h]) (fun _ => rfl)
    fun s => List.prefix_append ..

theorem forward_addReferences (found : List Reference) :
    Forward n r (modify (addReferences found)) :=
  forward_modify (fun _ _ _ => rfl) (fun _ => rfl) fun _ => List.prefix_append ..

theorem forward_addSymbols (found : List SymbolRecord) : Forward n r (modify (addSymbols found)) :=
  forward_modify (fun _ _ _ => rfl) (fun _ => rfl) fun _ => List.prefix_append ..

theorem journal_addReferences_append (found more : List Reference) (s : Session) (reader : Reader) :
    (addReferences found s).journal <+:
      (addReferences (found ++ more) { s with reader }).journal := by
  rw [addReferences, addReferences]
  dsimp only
  rw [List.mapIdx_append, ← List.append_assoc]
  exact List.prefix_append ..

theorem journal_addSymbols_append (found more : List SymbolRecord) (s : Session)
    (reader : Reader) :
    (addSymbols found s).journal <+: (addSymbols (found ++ more) { s with reader }).journal := by
  rw [addSymbols, addSymbols]
  dsimp only
  rw [SymbolRecord.placeAll_append, List.map_append, ← List.append_assoc]
  exact List.prefix_append ..

theorem forward_step (hr : r ≠ []) (st : Step) : Forward n r (step st) := by
  cases st with
  | header | footer =>
    exact (forward_read hr _).bind fun _ => forward_note _ fun _ _ h => congrArg _ h
  | version => exact (forward_read hr _).bind fun v => forward_note _ fun _ _ _ => rfl
  | dependencies => exact (forward_read hr _).bind fun size => forward_note _ fun _ _ _ => rfl
  | references =>
    show Forward n r (takeTable .references .reference addReferences
      fun s => s.note (.references (s.references.length - 1)))
    exact forward_takeTable hr forward_addReferences (forward_note _ fun _ _ _ => rfl)
      journal_addReferences_append
  | dataSegment =>
    refine (forward_read hr _).bind fun head => (forward_note _ fun _ _ _ => rfl).bind fun _ =>
      (forward_read hr _).bind fun bytes => ?_
    exact forward_modify (fun _ _ _ => rfl) (fun _ => rfl) fun _ => List.prefix_rfl
  | symbols =>
    show Forward n r (takeTable .symbols .symbolRecord addSymbols
      fun s => s.note (.symbols s.symbols.length s.next))
    exact forward_takeTable hr forward_addSymbols (forward_note _ fun _ _ _ => rfl)
      journal_addSymbols_append

theorem forward_forM_step (hr : r ≠ []) (steps : List Step) : Forward n r (steps.forM step) := by
  induction steps with
  | nil => exact ⟨.refl, fun _ _ h => .inl ⟨rfl, h⟩⟩
  | cons st steps ih => exact (forward_step hr st).bind fun _ => ih

theorem forward_decode (hr : r ≠ []) : Forward n r decode :=
  (forward_forM_step hr pipeline).bind fun _ => forward_result

end Session

/-- The journal of bytes is a front part of the journal of more bytes, and all of it if no byte
beyond the first ones is taken. -/
theorem Object.journal_prefix {p s : List UInt8} (h : p <+: s) :
    (decode [.data p]).2.journal <+: (decode [.data s]).2.journal ∧
      ((decode [.data s]).2.consumed ≤ p.length →
        (decode [.data p]).2.journal = (decode [.data s]).2.journal) := by
  obtain ⟨r, rfl⟩ := h
  by_cases hr : r = []
  · rw [hr, List.append_nil]
    exact ⟨List.prefix_rfl, fun _ => rfl⟩
  have hcontinues : Session.Continues p.length r (.ofEvents [.data p]) (.ofEvents [.data (p ++ r)]) :=
    ⟨⟨p, Input.signals_ofBytes p, Input.signals_ofBytes (p ++ r), Nat.zero_add _⟩, rfl, rfl, rfl⟩
  obtain ⟨-, hsame⟩ | ⟨-, hjournal, htaken⟩ := (Session.forward_decode hr).carries _ _ hcontinues
  · have heq := congrArg Session.journal hsame.eq
    have hjournal : (decode [.data (p ++ r)]).2.journal = (decode [.data p]).2.journal := heq
    rw [hjournal]
    exact ⟨List.prefix_rfl, fun _ => rfl⟩
  · exact ⟨hjournal, fun hle => absurd htaken (Nat.not_lt.2 hle)⟩

end ObjectFile
