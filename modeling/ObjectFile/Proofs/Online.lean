import ObjectFile.Proofs.Signal
/-!
# Parsers read online

A parser of this library looks at the bytes one after another and comes to its outcome as
soon as it can.  So for every string of bytes one of two things holds:

* the parser *decides* on a front part `w` of it: whatever follows `w`, it takes just `w`
  and comes to the same outcome (`Parser.Decides`);
* the parser is *stopped* behind all of it: it takes everything and asks for more, and what
  it comes to depends only on the fault that it meets there (`Parser.Stops`).

A parser of which this is so is *online* (`Parser.Online`), where a relation says in which
ways it can be stopped.  Most parsers are *steady*: when they are stopped they fail with the
very fault that stopped them.

Every combinator keeps parsers online.  Two consequences are drawn at once:

* `Parser.Online.uniform`: the pieces in which the bytes arrive make no difference;
* `Parser.accepts_bind`: what a sequence of parsers accepts is what the first accepts,
  followed by what the second accepts.
-/

namespace ObjectFile

namespace Input

/-- Bytes in front of the signals are in front of what is unread. -/
theorem unread_of_signals {i j : Input} {w : List UInt8}
    (h : i.signals = w.map .byte ++ j.signals) : i.unread = w ++ j.unread := by
  rw [← bytes_signals, ← bytes_signals, h, Signal.bytes_append, Signal.bytes_map_byte]

end Input

namespace Parser

variable {α β σ : Type}

/-- The parser takes `w` and comes to `out`, whatever follows. -/
def Decides (p : Parser α) (w : List UInt8) (out : Except Fault α) : Prop :=
  ∀ i t, i.signals = w.map .byte ++ t → ∃ j, p.run i = (out, j) ∧ j.signals = t

/-- The parser takes `w` and asks for more; if there is no byte then, `f` says what it makes
of the fault. -/
def Stops (p : Parser α) (w : List UInt8) (f : Fault → Except Fault α) : Prop :=
  ∀ i t fault rest, i.signals = w.map .byte ++ t →
    Signal.stop? (i.consumed + w.length) t = some (fault, rest) →
    ∃ j, p.run i = (f fault, j) ∧ j.signals = rest

/-- The parser gives the value `a` when it reads `w`, whatever follows. -/
def Accepts (p : Parser α) (w : List UInt8) (a : α) : Prop := p.Decides w (.ok a)

/-- On the bytes `s` the parser decides, or it is stopped in a way allowed by `E`. -/
def OnlineAt (p : Parser α) (E : (Fault → Except Fault α) → Prop) (s : List UInt8) : Prop :=
  (∃ f, E f ∧ p.Stops s f) ∨ ∃ w r out, s = w ++ r ∧ p.Decides w out

/-- Whatever the bytes are, the parser decides or is stopped in a way allowed by `E`. -/
def Online (p : Parser α) (E : (Fault → Except Fault α) → Prop) : Prop :=
  ∀ s, p.OnlineAt E s

/-- An online parser that, when it is stopped, fails with the fault that stopped it. -/
class Steady (p : Parser α) : Prop where
  online : p.Online (· = .error)

/-- An online parser that, when it is stopped, fails, perhaps with another fault. -/
class Firm (p : Parser α) : Prop where
  online : p.Online fun f => ∃ h : Fault → Fault, f = fun fault => .error (h fault)

theorem OnlineAt.mono {p : Parser α} {E E' : (Fault → Except Fault α) → Prop} {s : List UInt8}
    (h : p.OnlineAt E s) (hE : ∀ f, E f → E' f) : p.OnlineAt E' s :=
  h.imp (fun ⟨f, hf, hs⟩ => ⟨f, hE f hf, hs⟩) id

instance (p : Parser α) [hp : p.Steady] : p.Firm :=
  ⟨fun s => (hp.online s).mono fun _ hf => ⟨id, hf⟩⟩

/-! ## Runs -/

/-- Bytes taken from the front of the signals are counted. -/
theorem consumed_of_run {p : Parser α} {out : Except Fault α} {i j : Input} {w : List UInt8}
    (hrun : p.run i = (out, j)) (h : i.signals = w.map .byte ++ j.signals) :
    j.consumed = i.consumed + w.length := by
  have hadd := (p.advances i).consumed_add
  rw [hrun, Input.unread_of_signals h, List.length_append] at hadd
  dsimp only at hadd
  omega

/-- Where a parser comes to that decides on the front of the signals. -/
theorem Decides.run_eq {p : Parser α} {w : List UInt8} {out : Except Fault α} {i : Input}
    {t : List Signal} (h : p.Decides w out) (hi : i.signals = w.map .byte ++ t) :
    ∃ j, p.run i = (out, j) ∧ j.signals = t ∧ j.consumed = i.consumed + w.length := by
  obtain ⟨j, hrun, rfl⟩ := h i t hi
  exact ⟨j, hrun, rfl, consumed_of_run hrun hi⟩

/-- Where a parser comes to that is stopped at the end of the signals. -/
theorem Stops.run_eq {p : Parser α} {w : List UInt8} {f : Fault → Except Fault α} {i : Input}
    (h : p.Stops w f) (hi : i.signals = w.map .byte) :
    ∃ j, p.run i = (f (.truncated (i.consumed + w.length)), j) ∧ j.signals = [] ∧
      j.consumed = i.consumed + w.length := by
  rw [← List.append_nil (w.map Signal.byte)] at hi
  obtain ⟨j, hrun, hj⟩ := h i [] _ [] hi rfl
  rw [← hj] at hi
  exact ⟨j, hrun, hj, consumed_of_run hrun hi⟩

/-- A parser that decides takes just the bytes it decides on. -/
theorem Decides.run_ofBytes {p : Parser α} {w : List UInt8} {out : Except Fault α}
    (h : p.Decides w out) (r : List UInt8) :
    (p.run (.ofBytes (w ++ r))).1 = out ∧ (p.run (.ofBytes (w ++ r))).2.consumed = w.length := by
  obtain ⟨j, hrun, -, hc⟩ := h.run_eq (i := .ofBytes (w ++ r)) (t := r.map .byte) (by simp)
  rw [hrun]
  exact ⟨rfl, by simpa [Input.ofBytes] using hc⟩

/-- A parser that is stopped has taken everything. -/
theorem Stops.run_ofBytes {p : Parser α} {w : List UInt8} {f : Fault → Except Fault α}
    (h : p.Stops w f) :
    (p.run (.ofBytes w)).1 = f (.truncated w.length) ∧
      (p.run (.ofBytes w)).2.consumed = w.length := by
  obtain ⟨j, hrun, -, hc⟩ := h.run_eq (Input.signals_ofBytes w)
  have hzero : (Input.ofBytes w).consumed + w.length = w.length := Nat.zero_add _
  rw [hzero] at hrun hc
  rw [hrun]
  exact ⟨rfl, hc⟩

/-- A success of a parser that never takes an early end for one is decided by the bytes
taken. -/
theorem accepts_of_run {p : Parser α} [hp : p.Firm] {i j : Input} {a : α}
    (h : p.run i = (.ok a, j)) :
    ∃ w, i.signals = w.map .byte ++ j.signals ∧ p.Accepts w a := by
  obtain ⟨s, t, hs, ht⟩ := Signal.exists_stop i.signals
  -- stopped behind the bytes that come first, the parser would have failed
  obtain ⟨f, hf, hstop⟩ | ⟨w, r, out, rfl, hw⟩ := hp.online s
  · obtain ⟨fault, rest, hfault⟩ := ht (i.consumed + s.length)
    obtain ⟨h', rfl⟩ := hf
    obtain ⟨k, hk, -⟩ := hstop i t fault rest hs hfault
    rw [h] at hk
    cases hk
  · obtain ⟨k, hk, hkt⟩ := hw i (r.map .byte ++ t) (by simp [hs])
    rw [h] at hk
    cases hk
    exact ⟨w, by simp [hs, hkt], hw⟩

/-- What an online parser does is the same for inputs that differ only in how the bytes are
cut into pieces. -/
def Uniform (p : Parser α) : Prop :=
  ∀ i j, Input.Alike i j → (p.run i).1 = (p.run j).1 ∧ Input.Alike (p.run i).2 (p.run j).2

theorem Online.uniform {p : Parser α} {E : (Fault → Except Fault α) → Prop} (hp : p.Online E) :
    p.Uniform := by
  intro i j hij
  suffices h : ∃ out k l, p.run i = (out, k) ∧ p.run j = (out, l) ∧ k.signals = l.signals by
    obtain ⟨out, k, l, hk, hl, hkl⟩ := h
    have hi := p.advances i
    have hj := p.advances j
    rw [hk] at hi ⊢
    rw [hl] at hj ⊢
    exact ⟨rfl, hij.of_advances hi hj hkl⟩
  -- the same bytes come first in both inputs, and then the same that is no byte
  obtain ⟨s, t, hs, ht⟩ := Signal.exists_stop i.signals
  have hs' : j.signals = s.map .byte ++ t := by rw [← hij.signals_eq, hs]
  obtain ⟨f, -, hstop⟩ | ⟨w, r, out, rfl, hw⟩ := hp s
  · obtain ⟨fault, rest, hfault⟩ := ht (i.consumed + s.length)
    obtain ⟨k, hk, hkr⟩ := hstop i t fault rest hs hfault
    rw [hij.consumed_eq] at hfault
    obtain ⟨l, hl, hlr⟩ := hstop j t fault rest hs' hfault
    exact ⟨f fault, k, l, hk, hl, by rw [hkr, hlr]⟩
  · obtain ⟨k, hk, hkr⟩ := hw i (r.map .byte ++ t) (by simp [hs])
    obtain ⟨l, hl, hlr⟩ := hw j (r.map .byte ++ t) (by simp [hs'])
    exact ⟨out, k, l, hk, hl, by rw [hkr, hlr]⟩

/-! ## Values and faults -/

theorem decides_pure (a : α) : (pure a : Parser α).Decides [] (.ok a) := fun i _ h =>
  ⟨i, rfl, h⟩

theorem decides_fail (fault : Fault) : (fail fault : Parser α).Decides [] (.error fault) :=
  fun i _ h => ⟨i, rfl, h⟩

theorem Decides.online {p : Parser α} {out : Except Fault α} (h : p.Decides [] out)
    (E : (Fault → Except Fault α) → Prop) : p.Online E := fun s => .inr ⟨[], s, out, rfl, h⟩

instance (a : α) : (pure a : Parser α).Steady := ⟨(decides_pure a).online _⟩

instance (fault : Fault) : (fail fault : Parser α).Steady := ⟨(decides_fail fault).online _⟩

/-- A parser decides on one front part of the bytes only and comes to one outcome. -/
theorem Decides.unique {p : Parser α} {w r : List UInt8} {out out' : Except Fault α}
    (h : p.Decides (w ++ r) out) (h' : p.Decides w out') : r = [] ∧ out = out' := by
  obtain ⟨hout, hlen⟩ := h.run_ofBytes []
  obtain ⟨hout', hlen'⟩ := h'.run_ofBytes r
  rw [List.append_nil] at hout hlen
  rw [hlen'] at hlen
  refine ⟨?_, hout.symm.trans hout'⟩
  rw [List.length_append] at hlen
  exact List.length_eq_zero_iff.1 (by omega)

/-- What a parser decides on at the front of some bytes is determined by them. -/
theorem Decides.unique_append {p : Parser α} {w w' r r' : List UInt8} {out out' : Except Fault α}
    (h : p.Decides w out) (h' : p.Decides w' out') (hs : w ++ r = w' ++ r') :
    w = w' ∧ out = out' := by
  obtain ⟨x, rfl, -⟩ | ⟨x, rfl, -⟩ := List.append_eq_append_iff.1 hs
  · obtain ⟨rfl, rfl⟩ := h'.unique h
    exact ⟨(List.append_nil w).symm, rfl⟩
  · obtain ⟨rfl, rfl⟩ := h.unique h'
    exact ⟨List.append_nil w', rfl⟩

/-- A parser that is stopped behind all bytes does not decide on a front part of them. -/
theorem Stops.not_decides {p : Parser α} {w r : List UInt8} {out : Except Fault α}
    {f : Fault → Except Fault α} (hs : p.Stops (w ++ r) f) : ¬ p.Decides w out := by
  intro h
  -- the news that there are no more bytes is left in the one case and taken in the other
  let i : Input := ⟨[.data (w ++ r), .endOfData], 0⟩
  have hi : i.signals = (w ++ r).map .byte ++ [.endOfData] := by
    simp [i, Input.signals, Event.signals]
  obtain ⟨j, hj, hjt⟩ := h i (r.map .byte ++ [.endOfData]) (by simpa using hi)
  obtain ⟨k, hk, hkt⟩ := hs i [.endOfData] (.truncated (0 + (w ++ r).length)) [] hi rfl
  rw [hj] at hk
  cases hk
  rw [hjt] at hkt
  simp at hkt

/-! ## Sequences -/

theorem Decides.bind {p : Parser α} {g : α → Parser β} {u v : List UInt8} {a : α}
    {out : Except Fault β} (hp : p.Decides u (.ok a)) (hg : (g a).Decides v out) :
    (p >>= g).Decides (u ++ v) out := by
  intro i t h
  obtain ⟨j, hj, hjt⟩ := hp i (v.map .byte ++ t) (by simpa using h)
  rw [run_bind_of_ok hj]
  exact hg j t hjt

theorem Decides.bind_error {p : Parser α} {u : List UInt8} {fault : Fault}
    (hp : p.Decides u (.error fault)) (g : α → Parser β) :
    (p >>= g).Decides u (.error fault) := by
  intro i t h
  obtain ⟨j, hj, hjt⟩ := hp i t h
  exact ⟨j, run_bind_of_error hj g, hjt⟩

theorem Decides.bind_stops {p : Parser α} {g : α → Parser β} {u v : List UInt8} {a : α}
    {f : Fault → Except Fault β} (hp : p.Decides u (.ok a)) (hg : (g a).Stops v f) :
    (p >>= g).Stops (u ++ v) f := by
  intro i t fault rest h ht
  obtain ⟨j, hj, hjt, hc⟩ := hp.run_eq (i := i) (t := v.map .byte ++ t) (by simpa using h)
  rw [run_bind_of_ok hj]
  refine hg j t fault rest hjt ?_
  rw [hc, Nat.add_assoc, ← List.length_append]
  exact ht

/-- A parser that fails when it is stopped stops the whole sequence. -/
theorem Stops.bind_error {p : Parser α} {u : List UInt8} {h : Fault → Fault}
    (hp : p.Stops u fun fault => .error (h fault)) (g : α → Parser β) :
    (p >>= g).Stops u fun fault => .error (h fault) := by
  intro i t fault rest hi ht
  obtain ⟨j, hj, hjt⟩ := hp i t fault rest hi ht
  exact ⟨j, run_bind_of_error hj g, hjt⟩

theorem Decides.map {p : Parser α} {u : List UInt8} {out : Except Fault α}
    (hp : p.Decides u out) (f : α → β) : (f <$> p).Decides u (out.map f) := by
  cases out with
  | error fault => exact hp.bind_error _
  | ok a =>
    have h := hp.bind (g := fun a => pure (f a)) (decides_pure (f a))
    rwa [List.append_nil] at h

/-- When the first parser goes on as it is stopped, the second decides what comes of that. -/
theorem Stops.bind_ok {p : Parser α} {g : α → Parser β} {u : List UInt8} {h : Fault → α}
    {f : Fault → Except Fault β} (hp : p.Stops u fun fault => .ok (h fault))
    (hg : ∀ fault, (g (h fault)).Decides [] (f fault)) : (p >>= g).Stops u f := by
  intro i t fault rest hi ht
  obtain ⟨j, hj, hjt⟩ := hp i t fault rest hi ht
  obtain ⟨k, hk, hkt⟩ := hg fault j rest hjt
  exact ⟨k, by rw [run_bind_of_ok hj, hk], hkt⟩

/-- A sequence is online at bytes at which its first part is, if the rest is online at the
bytes that are left. -/
theorem OnlineAt.bind {p : Parser α} {g : α → Parser β} {E : (Fault → Except Fault α) → Prop}
    {E' : (Fault → Except Fault β) → Prop} {s : List UInt8} (hp : p.OnlineAt E s)
    (hstop : ∀ f, E f → p.Stops s f → ∃ f', E' f' ∧ (p >>= g).Stops s f')
    (hg : ∀ w r a, s = w ++ r → p.Decides w (.ok a) → (g a).OnlineAt E' r) :
    (p >>= g).OnlineAt E' s := by
  obtain ⟨f, hf, hs⟩ | ⟨w, r, out, rfl, hw⟩ := hp
  -- the first parser is stopped, or it fails, or the second one goes on behind it
  · exact .inl (hstop f hf hs)
  · cases out with
    | error fault => exact .inr ⟨w, r, _, rfl, hw.bind_error g⟩
    | ok a =>
      obtain ⟨f, hf, hs⟩ | ⟨w', r', out, rfl, hw'⟩ := hg w r a rfl hw
      · exact .inl ⟨f, hf, hw.bind_stops hs⟩
      · exact .inr ⟨w ++ w', r', out, (List.append_assoc ..).symm, hw.bind hw'⟩

instance (p : Parser α) (g : α → Parser β) [hp : p.Steady] [hg : ∀ a, (g a).Steady] :
    (p >>= g).Steady := by
  refine ⟨fun s => (hp.online s).bind ?_ fun _ r a _ _ => (hg a).online r⟩
  rintro _ rfl hs
  exact ⟨_, rfl, hs.bind_error (h := id) g⟩

instance (p : Parser α) (g : α → Parser β) [hp : p.Firm] [hg : ∀ a, (g a).Firm] :
    (p >>= g).Firm := by
  refine ⟨fun s => (hp.online s).bind ?_ fun _ r a _ _ => (hg a).online r⟩
  rintro _ ⟨h, rfl⟩ hs
  exact ⟨_, ⟨h, rfl⟩, hs.bind_error g⟩

instance (p : Parser α) (f : α → β) [p.Steady] : (f <$> p).Steady :=
  inferInstanceAs (p >>= fun a => pure (f a)).Steady

instance (p : Parser α) (f : α → β) [p.Firm] : (f <$> p).Firm :=
  inferInstanceAs (p >>= fun a => pure (f a)).Firm

instance (c : Prop) [Decidable c] (p q : Parser α) [p.Steady] [q.Steady] :
    (if c then p else q).Steady := by
  split <;> infer_instance

/-! ## What parsers accept -/

theorem Accepts.bind {p : Parser α} {g : α → Parser β} {u v : List UInt8} {a : α} {b : β}
    (hp : p.Accepts u a) (hg : (g a).Accepts v b) : (p >>= g).Accepts (u ++ v) b :=
  Decides.bind hp hg

theorem accepts_pure {a b : α} {w : List UInt8} :
    (pure a : Parser α).Accepts w b ↔ w = [] ∧ b = a := by
  constructor
  · intro h
    obtain ⟨j, hj, hjt⟩ := h (.ofBytes w) [] (by simp)
    cases hj
    simp at hjt
    exact ⟨hjt, rfl⟩
  · rintro ⟨rfl, rfl⟩
    exact decides_pure b

theorem accepts_fail {fault : Fault} {b : α} {w : List UInt8} :
    ¬ (fail fault : Parser α).Accepts w b := by
  intro h
  obtain ⟨j, hj, -⟩ := h (.ofBytes w) [] (by simp)
  cases hj

/-- A sequence accepts what its parts accept, one behind the other. -/
theorem accepts_bind {p : Parser α} {g : α → Parser β} [p.Firm] [∀ a, (g a).Firm]
    {w : List UInt8} {b : β} :
    (p >>= g).Accepts w b ↔ ∃ u v a, w = u ++ v ∧ p.Accepts u a ∧ (g a).Accepts v b := by
  constructor
  · intro h
    obtain ⟨k, hk, hkt⟩ := h (.ofBytes w) [] (by simp)
    obtain ⟨a, j, hpj, hgj⟩ := run_bind_eq_ok.1 hk
    obtain ⟨u, hu, hpa⟩ := accepts_of_run hpj
    obtain ⟨v, hv, hga⟩ := accepts_of_run hgj
    rw [hkt, List.append_nil] at hv
    refine ⟨u, v, a, ?_, hpa, hga⟩
    rw [Input.signals_ofBytes, hv, ← List.map_append] at hu
    exact (List.map_inj_right fun _ _ => Signal.byte.inj).1 hu
  · rintro ⟨u, v, a, rfl, hu, hv⟩
    exact hu.bind hv

theorem accepts_map {p : Parser α} [p.Firm] {f : α → β} {w : List UInt8} {b : β} :
    (f <$> p).Accepts w b ↔ ∃ a, p.Accepts w a ∧ b = f a := by
  show (p >>= fun a => pure (f a)).Accepts w b ↔ _
  simp only [accepts_bind, accepts_pure]
  constructor
  · rintro ⟨u, v, a, rfl, hu, rfl, rfl⟩
    exact ⟨a, by simpa using hu, rfl⟩
  · rintro ⟨a, hw, rfl⟩
    exact ⟨w, [], a, by simp, hw, rfl, rfl⟩

/-! ## Taking bytes -/

theorem decides_take (w : List UInt8) : (take w.length).Decides w (.ok w) := fun _ _ h =>
  Input.take_of_bytes h rfl

theorem stops_take {n : Nat} {w : List UInt8} (h : w.length < n) :
    (take n).Stops w .error := fun _ _ _ _ hi ht => Input.take_of_stop hi h ht

instance (n : Nat) : (take n).Steady := by
  refine ⟨fun s => ?_⟩
  by_cases h : s.length < n
  · exact .inl ⟨_, rfl, stops_take h⟩
  · have hd := decides_take (s.take n)
    rw [List.length_take, Nat.min_eq_left (Nat.not_lt.1 h)] at hd
    exact .inr ⟨s.take n, s.drop n, _, (List.take_append_drop n s).symm, hd⟩

theorem accepts_take {n : Nat} {w bytes : List UInt8} :
    (take n).Accepts w bytes ↔ w.length = n ∧ bytes = w := by
  constructor
  · intro h
    obtain ⟨j, hj, hjt⟩ := h (.ofBytes w) [] (by simp)
    have htake : (Input.ofBytes w).take n = (.ok bytes, j) := hj
    have hunread := Input.unread_of_take htake
    rw [← Input.bytes_signals, ← Input.bytes_signals, hjt] at hunread
    obtain rfl : w = bytes := by simpa [Signal.bytes] using hunread
    exact ⟨Input.length_of_take htake, rfl⟩
  · rintro ⟨rfl, rfl⟩
    exact decides_take _

theorem block_eq_take (n : Nat) : block n = take n := ext (Input.block_eq_take n)

instance (n : Nat) : (block n).Steady := by
  rw [block_eq_take]
  infer_instance

theorem decides_byte (b : UInt8) : byte.Decides [b] (.ok b) :=
  (decides_take [b]).bind (decides_pure b)

theorem stops_byte : byte.Stops [] .error :=
  (stops_take (n := 1) (w := []) (by simp)).bind_error (h := id) _

instance : byte.Steady :=
  inferInstanceAs (take 1 >>= fun bytes => pure (bytes.headD 0)).Steady

theorem accepts_byte {w : List UInt8} {b : UInt8} : byte.Accepts w b ↔ w = [b] := by
  constructor
  · intro h
    obtain ⟨u, v, bytes, rfl, hu, hv⟩ := accepts_bind.1 h
    obtain ⟨hlen, rfl⟩ := accepts_take.1 hu
    obtain ⟨rfl, rfl⟩ := accepts_pure.1 hv
    obtain ⟨c, rfl⟩ := List.length_eq_one_iff.1 hlen
    rfl
  · rintro rfl
    exact decides_byte b

theorem Accepts.byte_bind {g : UInt8 → Parser β} {b : UInt8} {v : List UInt8} {a : β}
    (h : (g b).Accepts v a) : (byte >>= g).Accepts (b :: v) a :=
  (accepts_byte.2 rfl).bind h

end Parser

end ObjectFile
