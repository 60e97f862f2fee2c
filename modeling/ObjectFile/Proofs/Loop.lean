import ObjectFile.Proofs.Grammar
import ObjectFile.Proofs.Online
import ObjectFile.Record.Parser
/-!
# Loops of online parsers

The loops of the library keep parsers online, and what they accept is the list of what
their bodies accept.

* `replicate` is a sequence as long as the number says.
* `scan` gives its state also when it is stopped, so it is online but not steady.
* A table is a scan that is settled (`Parser.table`): one record after another up to the
  marker of the end.
-/

namespace ObjectFile

open Grammar (Sequence InOrder)

namespace Parser

variable {α β σ : Type}

/-! ## Repetition -/

/-- The values gathered so far stand in front of those to come. -/
theorem replicateFrom_eq (p : Parser α) (got : List α) (n : Nat) (i : Input) :
    replicateFrom p got n i =
      (((replicateFrom p [] n i).1.map (got.reverse ++ ·)), (replicateFrom p [] n i).2) := by
  induction n generalizing got i with
  | zero => simp [replicateFrom, Except.map]
  | succ n ih =>
    simp only [replicateFrom]
    rcases p.run i with ⟨fault | a, j⟩
    · rfl
    · simp only [ih (a :: got), ih [a]]
      rcases (replicateFrom p [] n j).1 with fault | as <;> simp [Except.map]

@[simp] theorem replicate_zero (p : Parser α) : replicate 0 p = pure [] := rfl

theorem replicate_succ (n : Nat) (p : Parser α) :
    replicate (n + 1) p = p >>= fun a => (a :: ·) <$> replicate n p := by
  refine ext fun i => ?_
  show replicateFrom p [] (n + 1) i = _
  rw [run_bind, replicateFrom]
  rcases p.run i with ⟨fault | a, j⟩
  · rfl
  · show replicateFrom p [a] n j = (replicate n p >>= fun as => pure (a :: as)).run j
    have hrun : (replicate n p).run j = replicateFrom p [] n j := rfl
    rw [replicateFrom_eq, run_bind, hrun]
    rcases replicateFrom p [] n j with ⟨fault | as, k⟩ <;> rfl

instance (n : Nat) (p : Parser α) [p.Steady] : (replicate n p).Steady := by
  induction n with
  | zero => exact inferInstanceAs (pure [] : Parser (List α)).Steady
  | succ n ih =>
    rw [replicate_succ]
    infer_instance

/-- A repetition accepts as many items as the number says. -/
theorem accepts_replicate {n : Nat} {p : Parser α} [p.Steady] {w : List UInt8} {as : List α} :
    (replicate n p).Accepts w as ↔ as.length = n ∧ Sequence p.Accepts w as := by
  induction n generalizing w as with
  | zero =>
    rw [replicate_zero, accepts_pure, List.length_eq_zero_iff]
    constructor
    · rintro ⟨rfl, rfl⟩
      exact ⟨rfl, .nil⟩
    · rintro ⟨rfl, ⟨⟩⟩
      exact ⟨rfl, rfl⟩
  | succ n ih =>
    simp only [replicate_succ, accepts_bind, accepts_map, ih]
    constructor
    · rintro ⟨u, v, a, rfl, hu, as, ⟨rfl, hv⟩, rfl⟩
      exact ⟨rfl, .cons hu hv⟩
    · rintro ⟨hlen, hseq⟩
      cases hseq with
      | nil => simp at hlen
      | cons hu hv => exact ⟨_, _, _, rfl, hu, _, ⟨by simpa using hlen, hv⟩, rfl⟩

/-! ## Scanning -/

section Scan

variable {step : σ → UInt8 → Parser (σ ⊕ α)} {s t : σ} {b : UInt8} {u w : List UInt8}

theorem scanFrom_of_error {i j : Input} {fault : Fault} (h : byte.run i = (.error fault, j)) :
    scanFrom step s i = ((s, .error fault), j) := by
  rw [scanFrom]
  split <;> simp_all

theorem scanFrom_of_byte {i j : Input} (h : byte.run i = (.ok b, j)) :
    scanFrom step s i =
      match (step s b).run j with
      | (.error fault, k) => ((s, .error fault), k)
      | (.ok (.inr a), k) => ((s, .ok a), k)
      | (.ok (.inl t), k) => scanFrom step t k := by
  rw [scanFrom]
  split
  · simp_all
  · rename_i c k hc
    rw [h] at hc
    cases hc
    split <;> simp_all

/-- A scan begins with a byte. -/
theorem exists_run_byte {i : Input} {w : List UInt8} {t : List Signal}
    (h : i.signals = (b :: w).map .byte ++ t) :
    ∃ j, byte.run i = (.ok b, j) ∧ j.signals = w.map .byte ++ t ∧
      j.consumed = i.consumed + 1 :=
  (decides_byte b).run_eq (t := w.map .byte ++ t) h

theorem stops_scan_nil : (scan step s).Stops [] fun fault => .ok (s, .error fault) := by
  intro i t fault rest h ht
  obtain ⟨j, hj, hjt⟩ := stops_byte i t fault rest h ht
  refine ⟨j, ?_, hjt⟩
  show (Except.ok (scanFrom step s i).1, (scanFrom step s i).2) = _
  rw [scanFrom_of_error hj]

theorem Stops.scan_step (h : (step s b).Stops w .error) :
    (scan step s).Stops (b :: w) fun fault => .ok (s, .error fault) := by
  intro i t fault rest hi ht
  obtain ⟨j, hj, hjt, hc⟩ := exists_run_byte hi
  obtain ⟨k, hk, hkt⟩ := h j t fault rest hjt (by rw [hc, ← ht, List.length_cons]; congr 1; omega)
  refine ⟨k, ?_, hkt⟩
  show (Except.ok (scanFrom step s i).1, (scanFrom step s i).2) = _
  rw [scanFrom_of_byte hj, hk]

theorem Decides.scan_error {fault : Fault} (h : (step s b).Decides w (.error fault)) :
    (scan step s).Decides (b :: w) (.ok (s, .error fault)) := by
  intro i t hi
  obtain ⟨j, hj, hjt, -⟩ := exists_run_byte hi
  obtain ⟨k, hk, hkt⟩ := h j t hjt
  refine ⟨k, ?_, hkt⟩
  show (Except.ok (scanFrom step s i).1, (scanFrom step s i).2) = _
  rw [scanFrom_of_byte hj, hk]

theorem Decides.scan_done {a : α} (h : (step s b).Decides w (.ok (.inr a))) :
    (scan step s).Decides (b :: w) (.ok (s, .ok a)) := by
  intro i t hi
  obtain ⟨j, hj, hjt, -⟩ := exists_run_byte hi
  obtain ⟨k, hk, hkt⟩ := h j t hjt
  refine ⟨k, ?_, hkt⟩
  show (Except.ok (scanFrom step s i).1, (scanFrom step s i).2) = _
  rw [scanFrom_of_byte hj, hk]

theorem Decides.scan_next {out : Except Fault (σ × Except Fault α)}
    (h : (step s b).Decides w (.ok (.inl t))) (hnext : (scan step t).Decides u out) :
    (scan step s).Decides (b :: w ++ u) out := by
  intro i rest hi
  obtain ⟨j, hj, hjt, -⟩ := exists_run_byte (w := w ++ u) hi
  obtain ⟨k, hk, hkt⟩ := h j (u.map .byte ++ rest) (by simpa using hjt)
  obtain ⟨l, hl, hlt⟩ := hnext k rest hkt
  refine ⟨l, ?_, hlt⟩
  rw [← hl]
  show (Except.ok (scanFrom step s i).1, (scanFrom step s i).2) = _
  rw [scanFrom_of_byte hj, hk]
  rfl

theorem Stops.scan_next {f : Fault → Except Fault (σ × Except Fault α)}
    (h : (step s b).Decides w (.ok (.inl t))) (hnext : (scan step t).Stops u f) :
    (scan step s).Stops (b :: w ++ u) f := by
  intro i r fault rest hi hr
  obtain ⟨j, hj, hjt, hc⟩ := exists_run_byte (w := w ++ u) hi
  obtain ⟨k, hk, hkt, hd⟩ := h.run_eq (i := j) (t := u.map .byte ++ r) (by simpa using hjt)
  obtain ⟨l, hl, hlt⟩ := hnext k r fault rest hkt (by
    rw [hd, hc, ← hr]
    congr 1
    simp only [List.cons_append, List.length_cons, List.length_append]
    omega)
  refine ⟨l, ?_, hlt⟩
  rw [← hl]
  show (Except.ok (scanFrom step s i).1, (scanFrom step s i).2) = _
  rw [scanFrom_of_byte hj, hk]
  rfl

/-- A scan that is stopped gives its state and the fault. -/
theorem onlineAt_scan [hstep : ∀ s b, (step s b).Steady] (s : σ) (r : List UInt8) :
    (scan step s).OnlineAt (fun f => ∃ t, f = fun fault => .ok (t, .error fault)) r := by
  cases r with
  | nil => exact .inl ⟨_, ⟨s, rfl⟩, stops_scan_nil⟩
  | cons b r =>
    -- what the scan comes to is what the step for `b` comes to, unless this goes on
    obtain ⟨_, rfl, hs⟩ | ⟨w, r, out, rfl, hw⟩ := (hstep s b).online r
    · exact .inl ⟨_, ⟨s, rfl⟩, hs.scan_step⟩
    · rcases out with fault | t | a
      · exact .inr ⟨b :: w, r, _, rfl, hw.scan_error⟩
      · obtain ⟨f, hf, hs⟩ | ⟨w', r, out, rfl, hw'⟩ := onlineAt_scan t r
        · exact .inl ⟨f, hf, hs.scan_next hw⟩
        · exact .inr ⟨b :: w ++ w', r, out, by simp, hw.scan_next hw'⟩
      · exact .inr ⟨b :: w, r, _, rfl, hw.scan_done⟩
termination_by r.length

/-! ## Scans that are settled -/

variable {g : σ × Except Fault α → Parser β}

/-- A scan whose fault, if there is one, is the fault of the whole. -/
theorem scan_bind_eq (hg : ∀ t fault, g (t, .error fault) = fail fault) :
    scan step s >>= g =
      byte >>= fun b => step s b >>= Sum.elim (fun t => scan step t >>= g) fun a => g (s, .ok a) := by
  refine ext fun i => ?_
  show (g (scanFrom step s i).1).run (scanFrom step s i).2 = _
  rw [run_bind]
  rcases hb : byte.run i with ⟨fault | b, j⟩
  · rw [scanFrom_of_error hb, hg]
    rfl
  · rw [scanFrom_of_byte hb]
    dsimp only
    rw [run_bind]
    rcases (step s b).run j with ⟨fault | t | a, k⟩
    · rw [hg]
      rfl
    · rfl
    · rfl

theorem steady_scan_bind [∀ s b, (step s b).Steady]
    (hg : ∀ t fault, g (t, .error fault) = fail fault) [hsteady : ∀ t a, (g (t, .ok a)).Steady] :
    (scan step s >>= g).Steady := by
  refine ⟨fun r => (onlineAt_scan s r).bind ?_ ?_⟩
  · rintro _ ⟨t, rfl⟩ hs
    exact ⟨_, rfl, hs.bind_ok fun fault => by rw [hg]; exact decides_fail fault⟩
  · rintro w r ⟨t, fault | a⟩ - -
    · rw [hg]
      exact (decides_fail fault).online _ r
    · exact (hsteady t a).online r

end Scan

/-! ## Tables -/

/-- What is done with the marker in front of a record, where `got` are the records so far, the
latest first. -/
def recordStep (part : Section) (item : Parser α) (got : List α) (marker : UInt8) :
    Parser (List α ⊕ Unit) :=
  if marker = recordMarker then (fun a => .inl (a :: got)) <$> item
  else if marker = endMarker then pure (.inr ()) else fail (.strayMarker part marker)

instance (part : Section) (item : Parser α) [item.Steady] (got : List α) (marker : UInt8) :
    (recordStep part item got marker).Steady := by
  unfold recordStep
  infer_instance

theorem online_records (part : Section) (item : Parser α) [item.Steady] :
    (records part item).Online fun f => ∃ got, f = fun fault => .ok (got, .error fault) := by
  intro s
  have hscan : (scan (recordStep part item) []).OnlineAt _ s := onlineAt_scan [] s
  refine hscan.bind ?_ fun _ r a _ _ =>
    (decides_pure (a.1.reverse, a.2)).online _ r
  rintro _ ⟨got, rfl⟩ hs
  exact ⟨_, ⟨got.reverse, rfl⟩, hs.bind_ok fun fault => decides_pure _⟩

/-- The records of a table of which all can be read. -/
def table (part : Section) (item : Parser α) : Parser (List α) := do
  let (got, outcome) ← records part item
  settle outcome
  return got

/-- The rest of a table, where `got` are the records so far, the latest first. -/
def tableFrom (part : Section) (item : Parser α) (got : List α) : Parser (List α) :=
  scan (recordStep part item) got >>= fun r => settle r.2 >>= fun _ => pure r.1.reverse

theorem table_eq (part : Section) (item : Parser α) : table part item = tableFrom part item [] := by
  show (scan (recordStep part item) [] >>= fun r => pure (r.1.reverse, r.2)) >>= _ = _
  rw [bind_assoc]
  rfl

theorem tableFrom_eq (part : Section) (item : Parser α) (got : List α) :
    tableFrom part item got =
      byte >>= fun marker =>
        if marker = recordMarker then item >>= fun a => tableFrom part item (a :: got)
        else if marker = endMarker then pure got.reverse
        else fail (.strayMarker part marker) := by
  rw [tableFrom, scan_bind_eq fun _ _ => rfl]
  congr 1
  funext marker
  rw [recordStep]
  split
  · rw [map_eq_pure_bind, bind_assoc]
    rfl
  · split <;> rfl

instance (part : Section) (item : Parser α) [item.Steady] (got : List α) :
    (tableFrom part item got).Steady :=
  have (t : List α) (a : Unit) : (settle (.ok a) >>= fun _ => pure t.reverse).Steady :=
    (decides_pure t.reverse).online _ |> Steady.mk
  steady_scan_bind fun _ _ => rfl

instance (part : Section) (item : Parser α) [item.Steady] : (table part item).Steady := by
  rw [table_eq]
  infer_instance

/-- What the words of a record behind its marker are. -/
abbrev Marked (record : List UInt8 → α → Prop) (w : List UInt8) (a : α) : Prop :=
  InOrder [(· = [recordMarker]), (record · a)] w

theorem marked_iff {record : List UInt8 → α → Prop} {w : List UInt8} {a : α} :
    Marked record w a ↔ ∃ v, w = recordMarker :: v ∧ record v a := by
  constructor
  · rintro ⟨_, _, rfl, rfl, v, _, rfl, hv, rfl⟩
    exact ⟨v, by simp, hv⟩
  · rintro ⟨v, rfl, hv⟩
    exact ⟨_, v, rfl, rfl, v, [], by simp, hv, rfl⟩

/-- Records up to the end are accepted, whatever records came before. -/
theorem accepts_tableFrom_of_sequence {part : Section} {item : Parser α} [item.Steady]
    {got as : List α} {u : List UInt8} (h : Sequence (Marked item.Accepts) u as) :
    (tableFrom part item got).Accepts (u ++ [endMarker]) (got.reverse ++ as) := by
  induction h generalizing got with
  | nil =>
    rw [tableFrom_eq, List.append_nil]
    exact Accepts.byte_bind (decides_pure _)
  | @cons v u a as hv _ ih =>
    obtain ⟨x, rfl, hx⟩ := marked_iff.1 hv
    rw [tableFrom_eq]
    refine Accepts.byte_bind ?_
    rw [if_pos rfl]
    simpa using hx.bind (g := fun a => tableFrom part item (a :: got)) ih

/-- Nothing is accepted but records up to the end. -/
theorem sequence_of_accepts_tableFrom {part : Section} {item : Parser α} [item.Steady]
    {got as : List α} {w : List UInt8} (h : (tableFrom part item got).Accepts w as) :
    ∃ u new, w = u ++ [endMarker] ∧ as = got.reverse ++ new ∧
      Sequence (Marked item.Accepts) u new := by
  rw [tableFrom_eq, accepts_bind] at h
  obtain ⟨_, v, marker, hw, hmarker, h⟩ := h
  rw [accepts_byte.1 hmarker] at hw
  split at h
  · rename_i hm
    -- behind the record stands the rest of the table, which is shorter
    obtain ⟨x, y, a, hv, hx, hy⟩ := accepts_bind.1 h
    have hshorter : y.length < w.length := by
      rw [hw, hv, List.length_append, List.length_append, List.length_singleton]
      omega
    obtain ⟨u, new, rfl, rfl, hu⟩ := sequence_of_accepts_tableFrom hy
    refine ⟨marker :: x ++ u, a :: new, by simp [hw, hv], by simp, .cons ?_ hu⟩
    exact marked_iff.2 ⟨x, by rw [hm], hx⟩
  · split at h
    · rename_i hm
      obtain ⟨rfl, rfl⟩ := accepts_pure.1 h
      exact ⟨[], [], by rw [hw, hm]; rfl, by simp, .nil⟩
    · exact absurd h accepts_fail
termination_by w.length

/-- A table accepts the records that its items accept, each behind a marker. -/
theorem accepts_table {part : Section} {item : Parser α} [item.Steady] {w : List UInt8}
    {as : List α} : (table part item).Accepts w as ↔ Grammar.Table item.Accepts w as := by
  rw [table_eq]
  constructor
  · intro h
    obtain ⟨u, new, rfl, rfl, hu⟩ := sequence_of_accepts_tableFrom h
    exact ⟨u, [endMarker], rfl, hu, [endMarker], [], rfl, rfl, rfl⟩
  · rintro ⟨u, _, rfl, hu, _, _, rfl, rfl, rfl⟩
    have haccepts : (tableFrom part item []).Accepts (u ++ [endMarker]) ([].reverse ++ as) :=
      accepts_tableFrom_of_sequence hu
    exact haccepts

end Parser

end ObjectFile
