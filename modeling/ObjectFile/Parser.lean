import ObjectFile.Input
/-!
# Parsers

A parser takes bytes from an input and gives a value or a fault.  It carries the proof that
it only ever takes a front part of the unread bytes and counts them, so a loop that takes a
byte in every round ends.

The parsers are built from `take`, `block` and the combinators of this file:

* `pure`, `bind` and `fail`;
* `replicate`, which runs a parser a given number of times and stops at the first fault;
* `scan`, which feeds one byte after another to a step until a step gives a result, and
  which says how far it came also when reading fails;
* `onTruncation`, which says an early end of the data in other words.
-/

namespace ObjectFile

open Input (Advances)

/-- A parser for values of type `α`. -/
structure Parser (α : Type) where
  /-- Takes bytes from the input: the value or the fault, and the input that is left. -/
  run : Input → Except Fault α × Input
  /-- The bytes taken are a front part of the unread ones, and they are counted. -/
  advances : ∀ i, Advances i (run i).2

namespace Parser

variable {α β σ : Type}

@[ext] theorem ext {p q : Parser α} (h : ∀ i, p.run i = q.run i) : p = q := by
  cases p
  cases q
  congr
  exact funext h

/-- Gives a value and takes nothing. -/
@[inline] protected def pure (a : α) : Parser α := ⟨fun i => (.ok a, i), fun i => .refl i⟩

/-- Fails and takes nothing. -/
@[inline] def fail (fault : Fault) : Parser α := ⟨fun i => (.error fault, i), fun i => .refl i⟩

/-- Runs a parser and then the one chosen by its value. -/
@[inline] protected def bind (p : Parser α) (f : α → Parser β) : Parser β where
  run i :=
    match p.run i with
    | (.ok a, j) => (f a).run j
    | (.error fault, j) => (.error fault, j)
  advances i := by
    have h := p.advances i
    revert h
    rcases p.run i with ⟨_ | a, j⟩ <;> intro h
    · exact h
    · exact h.trans ((f a).advances j)

instance : Monad Parser where
  pure := Parser.pure
  bind := Parser.bind

@[simp] theorem run_pure (a : α) (i : Input) : (pure a : Parser α).run i = (.ok a, i) := rfl

@[simp] theorem run_fail (fault : Fault) (i : Input) :
    (fail fault : Parser α).run i = (.error fault, i) := rfl

theorem run_bind (p : Parser α) (f : α → Parser β) (i : Input) :
    (p >>= f).run i =
      match p.run i with
      | (.ok a, j) => (f a).run j
      | (.error fault, j) => (.error fault, j) := rfl

theorem run_bind_of_ok {p : Parser α} {i j : Input} {a : α} (h : p.run i = (.ok a, j))
    (f : α → Parser β) : (p >>= f).run i = (f a).run j := by
  rw [run_bind, h]

theorem run_bind_of_error {p : Parser α} {i j : Input} {fault : Fault}
    (h : p.run i = (.error fault, j)) (f : α → Parser β) :
    (p >>= f).run i = (.error fault, j) := by
  rw [run_bind, h]

/-- A sequence succeeds only if both of its parts do. -/
theorem run_bind_eq_ok {p : Parser α} {f : α → Parser β} {i k : Input} {b : β} :
    (p >>= f).run i = (.ok b, k) ↔
      ∃ a j, p.run i = (.ok a, j) ∧ (f a).run j = (.ok b, k) := by
  rw [run_bind]
  rcases p.run i with ⟨_ | a, j⟩
  · simp
  · constructor
    · exact fun h => ⟨a, j, rfl, h⟩
    · rintro ⟨_, _, ⟨⟩, h⟩
      exact h

instance : LawfulMonad Parser := LawfulMonad.mk' Parser
  (fun p => ext fun i => by
    show (p >>= fun a => pure a).run i = p.run i
    rw [run_bind]
    rcases p.run i with ⟨_ | a, j⟩ <;> rfl)
  (fun _ _ => rfl)
  (fun p f g => ext fun i => by
    simp only [run_bind]
    rcases p.run i with ⟨_ | a, j⟩ <;> rfl)

/-! ## Taking bytes -/

/-- Exactly `need` bytes, counted delivery by delivery. -/
def take (need : Nat) : Parser (List UInt8) := ⟨Input.take need, Input.advances_take need⟩

/-- A block of `size` bytes, looked at when it has been gathered. -/
def block (size : Nat) : Parser (List UInt8) := ⟨Input.block size, Input.advances_block size⟩

/-- One byte. -/
def byte : Parser UInt8 := do
  let bytes ← take 1
  return bytes.headD 0

/-- A byte that has been read is gone from the unread ones. -/
theorem length_lt_of_byte {i j : Input} {b : UInt8} (h : byte.run i = (.ok b, j)) :
    j.unread.length < i.unread.length := by
  obtain ⟨bytes, k, hk, hb⟩ := run_bind_eq_ok.1 h
  cases hb
  have htake : i.take 1 = (.ok bytes, j) := hk
  simp [Input.unread_of_take htake, Input.length_of_take htake]

/-! ## Loops -/

/-- Runs a parser so many times more; `got` are the values so far, the latest first. -/
def replicateFrom (p : Parser α) : List α → Nat → Input → Except Fault (List α) × Input
  | got, 0, i => (.ok got.reverse, i)
  | got, n + 1, i =>
    match p.run i with
    | (.ok a, j) => replicateFrom p (a :: got) n j
    | (.error fault, j) => (.error fault, j)

theorem advances_replicateFrom (p : Parser α) (got : List α) (n : Nat) (i : Input) :
    Advances i (replicateFrom p got n i).2 := by
  fun_induction replicateFrom p got n i with
  | case1 got i => exact .refl i
  | case2 got n i a j hrun ih => exact .trans (by simpa [hrun] using p.advances i) ih
  | case3 got n i fault j hrun => simpa [hrun] using p.advances i

/-- The values of `n` runs of a parser, one after another. -/
def replicate (n : Nat) (p : Parser α) : Parser (List α) :=
  ⟨replicateFrom p [] n, advances_replicateFrom p [] n⟩

/-- Feeds bytes to a step, from a state on, until a step gives a result. -/
def scanFrom (step : σ → UInt8 → Parser (σ ⊕ α)) (s : σ) (i : Input) :
    (σ × Except Fault α) × Input :=
  match _hbyte : byte.run i with
  | (.error fault, j) => ((s, .error fault), j)
  | (.ok b, j) =>
    match _hstep : (step s b).run j with
    | (.error fault, k) => ((s, .error fault), k)
    | (.ok (.inr a), k) => ((s, .ok a), k)
    | (.ok (.inl t), k) => scanFrom step t k
termination_by i.unread.length
decreasing_by
  have h := (step s b).advances j
  rw [_hstep] at h
  exact Nat.lt_of_le_of_lt h.length_le (length_lt_of_byte _hbyte)

theorem advances_scanFrom (step : σ → UInt8 → Parser (σ ⊕ α)) (s : σ) (i : Input) :
    Advances i (scanFrom step s i).2 := by
  fun_induction scanFrom step s i with
  | case1 s i fault j hbyte => simpa [hbyte] using byte.advances i
  | case2 s i b j hbyte fault k hstep =>
    exact .trans (by simpa [hbyte] using byte.advances i)
      (by simpa [hstep] using (step s b).advances j)
  | case3 s i b j hbyte a k hstep =>
    exact .trans (by simpa [hbyte] using byte.advances i)
      (by simpa [hstep] using (step s b).advances j)
  | case4 s i b j hbyte t k hstep ih =>
    exact .trans (by simpa [hbyte] using byte.advances i)
      (.trans (by simpa [hstep] using (step s b).advances j) ih)

/-- Feeds bytes to a step, from a state on, until a step gives a result.  The outcome comes
with the state of the last step, which tells how far a scan came that failed. -/
def scan (step : σ → UInt8 → Parser (σ ⊕ α)) (s : σ) : Parser (σ × Except Fault α) where
  run i := (.ok (scanFrom step s i).1, (scanFrom step s i).2)
  advances i := advances_scanFrom step s i

/-- Gives the value of an outcome, or fails with its fault. -/
def settle : Except Fault α → Parser α
  | .ok a => pure a
  | .error fault => fail fault

/-- Says an early end of the data in other words; any other fault stays as it is. -/
def onTruncation (p : Parser α) (fault : Fault) : Parser α where
  run i :=
    match p.run i with
    | (.error (.truncated _), j) => (.error fault, j)
    | outcome => outcome
  advances i := by
    have h := p.advances i
    revert h
    rcases p.run i with ⟨fault | a, j⟩ <;> intro h
    · cases fault <;> exact h
    · exact h

end Parser

end ObjectFile
