import ObjectFile.Proofs.Delivery
/-!
# Devices that break down

A device brings bytes and then something else: the news that there are no more, or a failure
that is not a mere interruption.  A parser that needs none of what follows the bytes comes to
the same outcome whatever that is, and leaves it where it is (`Parser.Settles`).  A parser
that needs more takes all bytes and one more delivery, and makes a fault of it
(`Parser.Exhausts`).  That there is no third way is what makes a parser frugal
(`Parser.Frugal`), and every parser of this library is.

The signals of a device do not show this, as deliveries without any signal could be taken
in vain; so what is said here is about the deliveries themselves.
-/

namespace ObjectFile

/-! ## Faults -/

namespace Fault

/-- The data ended too early, before the header or behind it. -/
def early : Fault → Bool
  | truncated _ => true
  | noHeader => true
  | _ => false

theorem ofDevice_of_ne {kind : DeviceError} (h : kind ≠ .unexpectedEof) (message : String)
    (consumed : Nat) : ofDevice kind message consumed = device kind message := by
  cases kind with
  | unexpectedEof => exact absurd rfl h
  | _ => rfl

/-- Another way of saying that the data ended, and of nothing else. -/
structure Rewording (h : Fault → Fault) : Prop where
  early_truncated : ∀ consumed, (h (truncated consumed)).early = true
  device : ∀ kind message, h (device kind message) = device kind message

theorem rewording_id : Rewording id := ⟨fun _ => rfl, fun _ _ => rfl⟩

theorem early_retold {fault : Fault} (h : fault.early = true) :
    (retold .noHeader fault).early = true := by
  cases fault with
  | truncated _ => rfl
  | noHeader => rfl
  | _ => cases h

theorem retold_of_late {fault : Fault} (h : fault.early = false) :
    retold .noHeader fault = fault := by
  cases fault with
  | truncated _ => cases h
  | _ => rfl

theorem Rewording.retold {h : Fault → Fault} (hh : Rewording h) :
    Rewording fun fault => Fault.retold .noHeader (h fault) where
  early_truncated consumed := early_retold (hh.early_truncated consumed)
  device kind message := by
    rw [hh.device]
    rfl

end Fault

/-! ## Deliveries -/

namespace Event

/-- What comes of asking for a byte, after so many bytes, when the deliveries begin with
something that ends the data: the fault and the deliveries behind it. -/
def breakdown? (consumed : Nat) : List Event → Option (Fault × List Event)
  | [] => some (.truncated consumed, [])
  | data _ :: _ => none
  | endOfData :: later => some (.truncated consumed, later)
  | failure kind message :: later =>
    if kind = .interrupted then none else some (.ofDevice kind message consumed, later)

theorem breakdown?_failure {kind : DeviceError} (h : kind ≠ .interrupted) (message : String)
    (consumed : Nat) (later : List Event) :
    breakdown? consumed (.failure kind message :: later) =
      some (.ofDevice kind message consumed, later) := if_neg h

theorem Delivers.flatMap_payload {events : List Event} {w : List UInt8} (h : Delivers events w) :
    events.flatMap payload = w := by
  induction h with
  | done => rfl
  | data piece _ ih => rw [List.flatMap_cons, ih, payload]
  | interrupted message _ ih => rw [List.flatMap_cons, ih, payload, List.nil_append]

end Event

namespace Input

variable {got : List (List UInt8)} {need consumed : Nat} {front tail later : List Event}
  {w : List UInt8} {fault : Fault}

/-- The input with more deliveries behind its own. -/
def followedBy (i : Input) (tail : List Event) : Input := ⟨i.events ++ tail, i.consumed⟩

/-- The input brings bytes and interruptions only. -/
def Plain (i : Input) : Prop := Event.Delivers i.events i.unread

@[simp] theorem followedBy_nil (i : Input) : i.followedBy [] = i := by
  simp [followedBy]

theorem takeFrom_of_breakdown (h : Event.breakdown? consumed tail = some (fault, later)) :
    takeFrom got (need + 1) tail consumed = (.error fault, ⟨later, consumed⟩) := by
  cases tail with
  | nil =>
    cases h
    rw [takeFrom]
  | cons e tail =>
    cases e with
    | data bytes => cases h
    | endOfData =>
      cases h
      rw [takeFrom]
    | failure kind message =>
      by_cases hkind : kind = .interrupted
      · rw [Event.breakdown?, if_pos hkind] at h
        cases h
      · rw [Event.breakdown?_failure hkind] at h
        cases h
        rw [takeFrom, if_neg hkind]

/-- Enough bytes are taken from the deliveries that bring them, whatever follows these. -/
theorem takeFrom_of_delivers (got : List (List UInt8)) (consumed : Nat)
    (h : Event.Delivers front w) (hneed : need ≤ w.length) :
    ∃ left, Event.Delivers left (w.drop need) ∧
      ∀ tail, takeFrom got need (front ++ tail) consumed =
        (.ok (got.reverse.flatten ++ w.take need), ⟨left ++ tail, consumed + need⟩) := by
  induction h generalizing got need consumed with
  | done =>
    obtain rfl : need = 0 := by simpa using hneed
    exact ⟨[], .done, fun tail => by simp [takeFrom]⟩
  | @data piece events bytes rest ih =>
    cases need with
    | zero => exact ⟨.data piece :: events, .data piece rest, fun tail => by simp [takeFrom]⟩
    | succ n =>
      rcases Nat.lt_or_ge (n + 1) piece.length with hlt | hge
      · -- the piece is cut in two
        have hdrop : (piece ++ bytes).drop (n + 1) = piece.drop (n + 1) ++ bytes :=
          List.drop_append_of_le_length (by omega)
        refine ⟨.data (piece.drop (n + 1)) :: events, hdrop ▸ .data _ rest, fun tail => ?_⟩
        have hne : piece.drop (n + 1) ≠ [] := by
          rw [Ne, List.drop_eq_nil_iff]
          omega
        rw [List.cons_append, takeFrom]
        split
        · contradiction
        · rw [List.take_append_of_le_length (by omega)]
          simp
      · -- the piece is used up, and the bytes still missing come behind it
        have hdrop : piece.drop (n + 1) = [] := List.drop_eq_nil_iff.2 hge
        have hrest : n + 1 - piece.length ≤ bytes.length := by
          rw [List.length_append] at hneed
          omega
        obtain ⟨left, hleft, htake⟩ := ih (piece :: got) (consumed + piece.length) hrest
        refine ⟨left, by rwa [List.drop_append, hdrop, List.nil_append], fun tail => ?_⟩
        have hcount : consumed + piece.length + (n + 1 - piece.length) = consumed + (n + 1) := by
          omega
        rw [List.cons_append, takeFrom, hdrop]
        dsimp only
        rw [htake, hcount, List.take_append, List.take_of_length_le hge]
        simp
  | @interrupted message events bytes rest ih =>
    cases need with
    | zero =>
      exact ⟨_, .interrupted message rest, fun tail => by simp [takeFrom]⟩
    | succ n =>
      obtain ⟨left, hleft, htake⟩ := ih got consumed hneed
      refine ⟨left, hleft, fun tail => ?_⟩
      rw [List.cons_append, takeFrom, if_pos rfl, htake]

/-- Where bytes are missing, all are taken and the breakdown with them, but no more. -/
theorem takeFrom_of_delivers_breakdown (h : Event.Delivers front w) (hneed : w.length < need)
    (htail : Event.breakdown? (consumed + w.length) tail = some (fault, later)) :
    takeFrom got need (front ++ tail) consumed =
      (.error fault, ⟨later, consumed + w.length⟩) := by
  induction h generalizing got need consumed with
  | done =>
    obtain ⟨n, rfl⟩ := Nat.exists_eq_succ_of_ne_zero (Nat.ne_of_gt hneed)
    exact takeFrom_of_breakdown htail
  | @data piece events bytes rest ih =>
    obtain ⟨n, rfl⟩ := Nat.exists_eq_succ_of_ne_zero (Nat.ne_of_gt (Nat.zero_lt_of_lt hneed))
    rw [List.length_append] at hneed htail ⊢
    have hdrop : piece.drop (n + 1) = [] := List.drop_eq_nil_iff.2 (by omega)
    rw [List.cons_append, takeFrom, hdrop]
    dsimp only
    rw [ih (by omega) (by rwa [Nat.add_assoc]), Nat.add_assoc]
  | @interrupted message events bytes rest ih =>
    obtain ⟨n, rfl⟩ := Nat.exists_eq_succ_of_ne_zero (Nat.ne_of_gt (Nat.zero_lt_of_lt hneed))
    rw [List.cons_append, takeFrom, if_pos rfl, ih hneed htail]

end Input

/-! ## Frugal parsers -/

namespace Parser

variable {α β σ : Type} {p : Parser α} {i j : Input}

/-- Whatever follows the deliveries of `i`, the parser comes to `out` and leaves `j` and what
follows. -/
def Settles (p : Parser α) (i : Input) (out : Except Fault α) (j : Input) : Prop :=
  ∀ tail, p.run (i.followedBy tail) = (out, j.followedBy tail)

/-- The parser takes all bytes of `i` and the breakdown behind them, and says in the words of
`h` what this is. -/
def Exhausts (p : Parser α) (i : Input) (h : Fault → Fault) : Prop :=
  ∀ tail fault later,
    Event.breakdown? (i.consumed + i.unread.length) tail = some (fault, later) →
    p.run (i.followedBy tail) = (.error (h fault), ⟨later, i.consumed + i.unread.length⟩)

/-- The parser settles on plain deliveries, and its fault is not that the data ended, or it
exhausts them. -/
inductive FrugalAt (p : Parser α) (i : Input) : Prop where
  | settles {out : Except Fault α} {j : Input} (plain : j.Plain)
      (late : ∀ fault, out = .error fault → fault.early = false) (h : p.Settles i out j)
  | exhausts {h : Fault → Fault} (rewording : Fault.Rewording h) (hp : p.Exhausts i h)

/-- A parser that takes a delivery behind the bytes only when it needs one more byte. -/
class Frugal (p : Parser α) : Prop where
  frugalAt : ∀ i : Input, i.Plain → p.FrugalAt i

theorem Settles.run_eq {out : Except Fault α} (h : p.Settles i out j) : p.run i = (out, j) := by
  have hnil := h []
  rwa [Input.followedBy_nil, Input.followedBy_nil] at hnil

theorem Exhausts.run_eq {h : Fault → Fault} (hp : p.Exhausts i h) :
    p.run i = (.error (h (.truncated (i.consumed + i.unread.length))),
      ⟨[], i.consumed + i.unread.length⟩) := by
  have hnil := hp [] _ [] rfl
  rwa [Input.followedBy_nil] at hnil

theorem Settles.advances {out : Except Fault α} (h : p.Settles i out j) : Input.Advances i j := by
  have hadv := p.advances i
  rwa [h.run_eq] at hadv

theorem FrugalAt.pure (hi : i.Plain) (a : α) : (Pure.pure a : Parser α).FrugalAt i :=
  .settles hi (fun _ h => by cases h) fun _ => rfl

theorem FrugalAt.fail (hi : i.Plain) {fault : Fault} (hfault : fault.early = false) :
    (Parser.fail fault : Parser α).FrugalAt i :=
  .settles hi (fun _ h => by cases h; exact hfault) fun _ => rfl

/-- A sequence is frugal if its first part is, and the rest where the first part leaves it. -/
theorem FrugalAt.bind {g : α → Parser β} (hp : p.FrugalAt i)
    (hg : ∀ a j, p.Settles i (.ok a) j → j.Plain → (g a).FrugalAt j) : (p >>= g).FrugalAt i := by
  cases hp with
  | exhausts rewording hp =>
    exact .exhausts rewording fun tail fault later htail =>
      run_bind_of_error (hp tail fault later htail) g
  | @settles out j plain late hp =>
    cases out with
    | error fault =>
      have hlate : ∀ first, (.error fault : Except Fault β) = .error first →
          first.early = false := by
        rintro _ ⟨⟩
        exact late fault rfl
      exact .settles plain hlate fun tail => run_bind_of_error (hp tail) g
    | ok a =>
      cases hg a j hp plain with
      | settles plain' late' hg' =>
        exact .settles plain' late' fun tail => (run_bind_of_ok (hp tail) g).trans (hg' tail)
      | exhausts rewording hg' =>
        -- what the first part has taken counts for the whole
        have hstop := hp.advances.consumed_add
        refine .exhausts rewording fun tail fault later htail => ?_
        rw [← hstop] at htail ⊢
        exact (run_bind_of_ok (hp tail) g).trans (hg' tail fault later htail)

instance (a : α) : (pure a : Parser α).Frugal := ⟨fun _ hi => .pure hi a⟩

instance (p : Parser α) (g : α → Parser β) [hp : p.Frugal] [hg : ∀ a, (g a).Frugal] :
    (p >>= g).Frugal :=
  ⟨fun i hi => (hp.frugalAt i hi).bind fun a j _ hj => (hg a).frugalAt j hj⟩

instance (p : Parser α) (f : α → β) [p.Frugal] : (f <$> p).Frugal :=
  inferInstanceAs (p >>= fun a => pure (f a)).Frugal

instance (c : Prop) [Decidable c] (p q : Parser α) [p.Frugal] [q.Frugal] :
    (if c then p else q).Frugal := by
  split <;> infer_instance

instance (n : Nat) : (take n).Frugal := by
  refine ⟨fun i hi => ?_⟩
  rcases Nat.lt_or_ge i.unread.length n with hlt | hge
  · refine .exhausts Fault.rewording_id fun tail fault later htail => ?_
    exact Input.takeFrom_of_delivers_breakdown hi hlt htail
  · obtain ⟨left, hleft, htake⟩ := Input.takeFrom_of_delivers [] i.consumed hi hge
    refine .settles (j := ⟨left, i.consumed + n⟩) ?_ (fun _ h => by cases h) htake
    rw [Input.Plain, Input.unread, hleft.flatMap_payload]
    exact hleft

instance (n : Nat) : (block n).Frugal := by
  rw [block_eq_take]
  infer_instance

instance : byte.Frugal := inferInstanceAs (take 1 >>= fun bytes => pure (bytes.headD 0)).Frugal

instance (n : Nat) (p : Parser α) [p.Frugal] : (replicate n p).Frugal := by
  induction n with
  | zero => exact inferInstanceAs (pure [] : Parser (List α)).Frugal
  | succ n ih =>
    rw [replicate_succ]
    infer_instance

section Scan

variable {step : σ → UInt8 → Parser (σ ⊕ α)} {g : σ × Except Fault α → Parser β}

/-- A scan whose fault, if there is one, is the fault of the whole. -/
theorem frugalAt_scan_bind [hstep : ∀ s b, (step s b).Frugal]
    (hg : ∀ t fault, g (t, .error fault) = fail fault)
    [hdone : ∀ t a, (g (t, .ok a)).Frugal] (s : σ) (i : Input) (hi : i.Plain) :
    (scan step s >>= g).FrugalAt i := by
  rw [scan_bind_eq hg]
  refine (Frugal.frugalAt i hi).bind fun b j hbyte hj => ?_
  refine ((hstep s b).frugalAt j hj).bind fun r k hstep' hk => ?_
  cases r with
  | inl t =>
    have hlt := length_lt_of_byte hbyte.run_eq
    have hle := hstep'.advances.length_le
    exact frugalAt_scan_bind hg t k hk
  | inr a => exact (hdone s a).frugalAt k hk
termination_by i.unread.length

theorem frugal_scan_bind [∀ s b, (step s b).Frugal]
    (hg : ∀ t fault, g (t, .error fault) = fail fault)
    [∀ t a, (g (t, .ok a)).Frugal] (s : σ) : (scan step s >>= g).Frugal :=
  ⟨frugalAt_scan_bind hg s⟩

end Scan

theorem run_onTruncation (p : Parser α) (fault : Fault) (i : Input) :
    (p.onTruncation fault).run i = ((p.run i).1.mapError fault.retold, (p.run i).2) := by
  rcases hrun : p.run i with ⟨f | a, j⟩
  · simp only [Parser.onTruncation, hrun]
    cases f <;> rfl
  · simp only [Parser.onTruncation, hrun]
    rfl

instance (p : Parser α) [hp : p.Frugal] : (p.onTruncation .noHeader).Frugal := by
  refine ⟨fun i hi => ?_⟩
  cases hp.frugalAt i hi with
  | @settles out j plain late hp =>
    have hout : out.mapError (Fault.retold .noHeader) = out := by
      cases out with
      | ok a => rfl
      | error fault => exact congrArg Except.error (Fault.retold_of_late (late fault rfl))
    refine .settles plain late fun tail => ?_
    rw [run_onTruncation, hp tail, hout]
  | exhausts rewording hp =>
    refine .exhausts rewording.retold fun tail fault later htail => ?_
    rw [run_onTruncation, hp tail fault later htail]
    rfl

/-! ## The parsers of this library -/

instance : (fail .longNumber : Parser α).Frugal := ⟨fun _ hi => .fail hi rfl⟩

instance (what : String) (value : Int64) : (fail (.negativeLength what value) : Parser α).Frugal :=
  ⟨fun _ hi => .fail hi rfl⟩

instance (v : UInt8) : (fail (.wrongVersion v) : Parser α).Frugal := ⟨fun _ hi => .fail hi rfl⟩

instance (bytes : List UInt8) : (fail (.wrongFooter bytes) : Parser α).Frugal :=
  ⟨fun _ hi => .fail hi rfl⟩

instance (part : Section) (marker : UInt8) : (fail (.strayMarker part marker) : Parser α).Frugal :=
  ⟨fun _ hi => .fail hi rfl⟩

instance (a : α) : (settle (.ok a)).Frugal := inferInstanceAs (pure a : Parser α).Frugal

instance : header.Frugal :=
  have : (search []).Frugal := frugal_scan_bind (fun _ _ => rfl) []
  inferInstanceAs ((search []).onTruncation .noHeader).Frugal

instance : version.Frugal := by
  unfold version
  infer_instance

instance : dependencies.Frugal :=
  have : (names 0).Frugal := frugal_scan_bind (fun _ _ => rfl) 0
  dependencies_eq ▸ this

instance : footer.Frugal := by
  unfold footer
  infer_instance

instance (groups shift : Nat) (value : UInt64) : (uvarintFrom groups shift value).Frugal := by
  induction groups generalizing shift value with
  | zero => exact inferInstanceAs (fail .longNumber : Parser UInt64).Frugal
  | succ groups ih =>
    simp only [uvarintFrom]
    infer_instance

instance : varint.Frugal :=
  inferInstanceAs (uvarintFrom 10 0 0 >>= fun word => pure (Zigzag.decode word)).Frugal

instance (what : String) : (length what).Frugal := by
  unfold length
  infer_instance

instance : text.Frugal := by
  unfold text
  infer_instance

instance (item : Parser α) [item.Frugal] : (counted item).Frugal := by
  unfold counted
  infer_instance

instance : reference.Frugal := by
  unfold reference
  infer_instance

instance : relocation.Frugal := by
  unfold relocation
  infer_instance

instance : localVariable.Frugal := by
  unfold localVariable
  infer_instance

instance : inlinedCall.Frugal := by
  unfold inlinedCall
  infer_instance

instance : functionData.Frugal := by
  unfold functionData
  infer_instance

instance : functionRecord.Frugal := by
  unfold functionRecord
  infer_instance

instance (c : Prop) [Decidable c] (p : c → Parser α) (q : ¬ c → Parser α) [∀ h, (p h).Frugal]
    [∀ h, (q h).Frugal] : (dite c p q).Frugal := by
  split <;> infer_instance

instance : symbolRecord.Frugal := by
  unfold symbolRecord
  infer_instance

instance : segmentHead.Frugal := by
  unfold segmentHead
  infer_instance

instance (part : Section) (item : Parser α) [item.Frugal] (got : List α) (marker : UInt8) :
    (recordStep part item got marker).Frugal := by
  unfold recordStep
  infer_instance

instance (part : Section) (item : Parser α) [item.Frugal] : (table part item).Frugal := by
  rw [table_eq]
  exact frugal_scan_bind (fun _ _ => rfl) []

end Parser

/-! ## Object files -/

namespace Session

instance (c : Contents) (st : Step) : (st.parser c).Frugal := by
  cases st <;> unfold Step.parser <;> infer_instance

instance (c : Contents) (steps : List Step) : (parser c steps).Frugal := by
  induction steps generalizing c with
  | nil => exact inferInstanceAs (pure c : Parser Contents).Frugal
  | cons st steps ih => exact inferInstanceAs (st.parser c >>= fun c => parser c steps).Frugal

end Session

instance : Object.parser.Frugal := inferInstanceAs (Session.parser {} Session.pipeline).Frugal

/-- An event that is neither bytes nor an interruption breaks any reading that needs a byte. -/
theorem Event.exists_breakdown {stop : Event} (hdata : ∀ bytes, stop ≠ .data bytes)
    (hfailure : ∀ message, stop ≠ .failure .interrupted message) (consumed : Nat) :
    ∃ fault, ∀ later, breakdown? consumed (stop :: later) = some (fault, later) := by
  cases stop with
  | data bytes => exact absurd rfl (hdata bytes)
  | endOfData => exact ⟨_, fun _ => rfl⟩
  | failure kind message =>
    have hkind : kind ≠ .interrupted := by
      rintro rfl
      exact hfailure message rfl
    exact ⟨_, breakdown?_failure hkind message consumed⟩

namespace Object

variable {events : List Event} {d : List UInt8}

theorem decode_of_run {out : Except Fault Session.Contents} {j : Input}
    (hrun : parser.run ⟨events, 0⟩ = (out, j)) :
    (decode events).1 = out.map Session.Contents.object ∧
      (decode events).2.reader.input = j := by
  obtain ⟨hout, hinput⟩ := decode_run events
  rw [hout, hinput, hrun]
  exact ⟨rfl, rfl⟩

/-- The pieces in which bytes are delivered make no difference. -/
theorem decode_data_of_run {out : Except Fault Session.Contents} {j : Input}
    (h : Event.Delivers events d) (hrun : parser.run ⟨events, 0⟩ = (out, j)) :
    (decode [.data d]).1 = out.map Session.Contents.object ∧
      (decode [.data d]).2.consumed = j.consumed := by
  have hsignals : events.flatMap Event.signals = [Event.data d].flatMap Event.signals := by
    rw [h.signals_eq]
    simp [Event.signals]
  obtain ⟨hsame, hend⟩ := Session.respects_decode _ _ (Event.alike_of_signals hsignals)
  obtain ⟨hout, hinput⟩ := decode_of_run hrun
  exact ⟨hsame.symm.trans hout, hend.consumed_eq.symm.trans (congrArg Input.consumed hinput)⟩

theorem decode_of_settles {out : Except Fault Session.Contents} {j : Input}
    (h : Event.Delivers events d) (hp : parser.Settles ⟨events, 0⟩ out j) :
    (decode [.data d]).1 = out.map Session.Contents.object ∧
      ∀ tail, (decode (events ++ tail)).1 = (decode [.data d]).1 ∧
        (decode (events ++ tail)).2.reader.input =
          ⟨j.events ++ tail, (decode [.data d]).2.consumed⟩ := by
  obtain ⟨hplain, hconsumed⟩ := decode_data_of_run h hp.run_eq
  refine ⟨hplain, fun tail => ?_⟩
  have hrun : parser.run ⟨events ++ tail, 0⟩ = (out, j.followedBy tail) := hp tail
  rw [hplain, hconsumed]
  exact decode_of_run hrun

theorem decode_of_exhausts {reword : Fault → Fault} (h : Event.Delivers events d)
    (hp : parser.Exhausts ⟨events, 0⟩ reword) :
    (decode [.data d]).1 = .error (reword (.truncated d.length)) ∧
      (decode [.data d]).2.consumed = d.length ∧
      ∀ tail fault later, Event.breakdown? d.length tail = some (fault, later) →
        (decode (events ++ tail)).1 = .error (reword fault) ∧
          (decode (events ++ tail)).2.reader.input = ⟨later, d.length⟩ := by
  have hstop : 0 + (Input.unread ⟨events, 0⟩).length = d.length := by
    rw [Nat.zero_add]
    exact congrArg List.length h.flatMap_payload
  have hplain := hp.run_eq
  rw [hstop] at hplain
  obtain ⟨hout, hconsumed⟩ := decode_data_of_run h hplain
  refine ⟨hout, hconsumed, fun tail fault later htail => ?_⟩
  have hrun : parser.run ⟨events ++ tail, 0⟩ = (.error (reword fault), ⟨later, d.length⟩) := by
    rw [← hstop] at htail ⊢
    exact hp tail fault later htail
  exact decode_of_run hrun

/-- A device that brings bytes and then fails is as good as one that brings the bytes, unless
these end too early: then the failure is what is reported, or that the data ended if the
failure says no more than this.  It is no matter what comes behind the failure or behind the
end of the data, as all of that stays where it is; and if the bytes do not end too early, so
does what comes behind the bytes. -/
theorem decode_breakdown (h : Event.Delivers events d) :
    (∀ kind message later, kind ≠ .interrupted →
      (decode (events ++ .failure kind message :: later)).1 =
        (decode [.data d]).1.mapError fun fault =>
          if fault.early ∧ kind ≠ .unexpectedEof then .device kind message else fault) ∧
    (∀ later, (decode (events ++ .endOfData :: later)).1 = (decode [.data d]).1) ∧
    (∀ message later, (decode (events ++ .failure .unexpectedEof message :: later)).1 =
      (decode [.data d]).1) ∧
    (∀ stop, (∀ bytes, stop ≠ .data bytes) → (∀ message, stop ≠ .failure .interrupted message) →
      ∃ left, ∀ later, (decode (events ++ stop :: later)).2.reader.input =
        ⟨left ++ later, (decode [.data d]).2.consumed⟩) ∧
    ((∀ fault, (decode [.data d]).1 = .error fault → fault.early = false) →
      ∃ left, ∀ later, (decode (events ++ later)).2.reader.input =
        ⟨left ++ later, (decode [.data d]).2.consumed⟩) := by
  have hi : Input.Plain ⟨events, 0⟩ := by
    rw [Input.Plain, Input.unread, h.flatMap_payload]
    exact h
  cases Parser.Frugal.frugalAt (p := parser) _ hi with
  | @settles out j _ late hp =>
    obtain ⟨hplain, hdecode⟩ := decode_of_settles h hp
    refine ⟨fun kind message later _ => ?_, fun later => (hdecode _).1,
      fun message later => (hdecode _).1, fun stop _ _ => ⟨j.events ++ [stop], fun later => ?_⟩,
      fun _ => ⟨j.events, fun later => (hdecode later).2⟩⟩
    · rw [(hdecode _).1, hplain]
      cases out with
      | ok c => rfl
      | error fault => simp [Except.map, Except.mapError, late fault rfl]
    · rw [(hdecode _).2, List.append_assoc, List.singleton_append]
  | @exhausts reword rewording hp =>
    obtain ⟨hplain, hall, hdecode⟩ := decode_of_exhausts h hp
    have hearly := rewording.early_truncated d.length
    rw [hplain, hall]
    refine ⟨fun kind message later hkind => ?_, fun later => (hdecode _ _ later rfl).1,
      fun message later => (hdecode _ _ later rfl).1,
      fun stop hdata hfailure => ⟨[], fun later => ?_⟩, fun hlate => ?_⟩
    · rw [(hdecode _ _ later (Event.breakdown?_failure hkind ..)).1]
      by_cases heof : kind = .unexpectedEof
      · simp [heof, Except.mapError, Fault.ofDevice]
      · simp [heof, Except.mapError, Fault.ofDevice_of_ne heof, rewording.device, hearly]
    · obtain ⟨fault, hfault⟩ := Event.exists_breakdown hdata hfailure d.length
      rw [(hdecode _ _ _ (hfault later)).2]
      rfl
    · rw [hlate _ rfl] at hearly
      cases hearly

/-- A device that fails behind a header, before the version and behind a wrong one. -/
theorem decode_breakdown_version :
    let events : List Event :=
      [.data (Envelope.opening.take 3), .failure .interrupted "again",
        .data (Envelope.opening.drop 3)]
    let later : List Event := [.failure .timedOut "late", .data [1]]
    (decode (events ++ later)).1 = .error (.device .timedOut "late") ∧
      (decode (events ++ .endOfData :: later)).1 = .error (.truncated 8) ∧
      (decode (events ++ .data [2] :: later)).1 = .error (.wrongVersion 2) := by
  intro events later
  have hopening : Event.Delivers events
      (Envelope.opening.take 3 ++ (Envelope.opening.drop 3 ++ [])) :=
    .data _ (.interrupted "again" (.data _ .done))
  have hversion : Event.Delivers (events ++ [.data [2]])
      (Envelope.opening.take 3 ++ (Envelope.opening.drop 3 ++ ([2] ++ []))) :=
    .data _ (.interrupted "again" (.data _ (.data _ .done)))
  obtain ⟨hfailure, hend, -⟩ := decode_breakdown hopening
  obtain ⟨hfailure', -⟩ := decode_breakdown hversion
  refine ⟨?_, ?_, ?_⟩
  · exact (hfailure .timedOut "late" [.data [1]] (by decide)).trans (by decide +kernel)
  · exact (hend later).trans (by decide +kernel)
  · exact (hfailure' .timedOut "late" [.data [1]] (by decide)).trans (by decide +kernel)

end Object

end ObjectFile
