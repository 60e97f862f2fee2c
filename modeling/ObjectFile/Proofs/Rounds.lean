import ObjectFile.Proofs.Loop
/-!
# How often a loop runs

A list in an object file stands behind the number of its items, which may be any number of 63
bits, and a loop is then to run as often as this number says.  It ends with the data all the same:
no round succeeds without taking a byte, and the first one that fails is the last one
(`Parser.begins_rounds`).  So the rounds that are begun are at most one more than the bytes that
the loop takes (`Parser.rounds_add_length_le`), and at most one more than there are
(`Parser.endsWithData`).
-/

namespace ObjectFile

namespace Parser

variable {α β : Type} {p : Parser α} {n : Nat} {i k : Input}

/-! ## Parsers that take something -/

/-- A parser that succeeds only if it has taken something. -/
class Progresses (p : Parser α) : Prop where
  length_lt : ∀ {i j : Input} {a : α}, p.run i = (.ok a, j) → j.unread.length < i.unread.length

instance : byte.Progresses := ⟨length_lt_of_byte⟩

instance (p : Parser α) (f : α → Parser β) [p.Progresses] : (p >>= f).Progresses where
  length_lt h := by
    obtain ⟨a, j, hp, hf⟩ := run_bind_eq_ok.1 h
    have hlt := Progresses.length_lt hp
    have hle := ((f a).advances j).length_le
    rw [hf] at hle
    exact Nat.lt_of_le_of_lt hle hlt

instance : uvarint.Progresses := inferInstanceAs (byte >>= _).Progresses

instance : varint.Progresses := inferInstanceAs (uvarint >>= _).Progresses

instance : relocation.Progresses := inferInstanceAs (varint >>= _).Progresses

instance : localVariable.Progresses := inferInstanceAs (varint >>= _).Progresses

instance : inlinedCall.Progresses := inferInstanceAs (varint >>= _).Progresses

/-! ## Rounds -/

/-- The number of rounds that are begun when a parser is to be run `n` times and the first fault
ends the loop. -/
def rounds (p : Parser α) : Nat → Input → Nat
  | 0, _ => 0
  | n + 1, i =>
    match p.run i with
    | (.ok _, j) => rounds p n j + 1
    | (.error _, _) => 1

theorem run_replicate_of_ok {a : α} {j : Input} (h : p.run i = (.ok a, j)) :
    (replicate (n + 1) p).run i =
      (((replicate n p).run j).1.map (a :: ·), ((replicate n p).run j).2) := by
  rw [replicate_succ, run_bind_of_ok h]
  show (replicate n p >>= fun as => pure (a :: as)).run j = _
  rw [run_bind]
  rcases (replicate n p).run j with ⟨fault | as, k⟩ <;> rfl

theorem run_replicate_of_error {fault : Fault} (h : p.run i = (.error fault, k)) :
    (replicate (n + 1) p).run i = (.error fault, k) := by
  rw [replicate_succ, run_bind_of_error h]

/-- So many rounds of a loop are begun: if the loop succeeds, all of them, and if it fails, those up
to the first that fails, whose fault is that of the loop. -/
def Begins (p : Parser α) (n : Nat) (i : Input) (begun : Nat) : Prop :=
  match (replicate n p).run i with
  | (.ok _, _) => begun = n
  | (.error fault, k) => ∃ m < n, begun = m + 1 ∧
      ∃ as j, (replicate m p).run i = (.ok as, j) ∧ p.run j = (.error fault, k)

theorem begins_rounds (p : Parser α) (n : Nat) (i : Input) : p.Begins n i (p.rounds n i) := by
  induction n generalizing i with
  | zero => exact (rfl : p.rounds 0 i = 0)
  | succ n ih =>
    rcases hp : p.run i with ⟨fault | a, j⟩
    · have hloop : (replicate (n + 1) p).run i = (.error fault, j) := run_replicate_of_error hp
      simp only [Begins, hloop, rounds, hp]
      exact ⟨0, Nat.succ_pos n, rfl, [], i, rfl, hp⟩
    · -- what is so of the other rounds is so of all of them
      have hrest := ih j
      rcases hloop : (replicate n p).run j with ⟨fault | as, k⟩
      · simp only [Begins, hloop] at hrest
        obtain ⟨m, hm, hbegun, as, l, has, hl⟩ := hrest
        simp only [Begins, run_replicate_of_ok hp, hloop, rounds, hp, hbegun, Except.map]
        refine ⟨m + 1, Nat.succ_lt_succ hm, rfl, a :: as, l, ?_, hl⟩
        rw [run_replicate_of_ok hp, has]
        rfl
      · simp only [Begins, hloop] at hrest
        simp only [Begins, run_replicate_of_ok hp, hloop, rounds, hp, hrest, Except.map]

/-- The rounds that are begun are at most one more than the bytes that are taken. -/
theorem rounds_add_length_le (p : Parser α) [p.Progresses] (n : Nat) (i : Input) :
    rounds p n i + ((replicate n p).run i).2.unread.length ≤ i.unread.length + 1 := by
  induction n generalizing i with
  | zero =>
    show 0 + i.unread.length ≤ _
    omega
  | succ n ih =>
    rcases hp : p.run i with ⟨fault | a, k⟩
    · have hle : k.unread.length ≤ i.unread.length := by
        simpa [hp] using (p.advances i).length_le
      rw [run_replicate_of_error hp]
      simp only [rounds, hp]
      omega
    · have hlt := Progresses.length_lt hp
      have hrest := ih k
      rw [run_replicate_of_ok hp]
      simp only [rounds, hp]
      omega

/-- Whatever number of 64 bits the count of a loop is, the rounds that are begun are at most one more
than there are bytes left. -/
def EndsWithData (p : Parser α) : Prop :=
  ∀ (count : Int64) (i : Input),
    p.Begins count.toInt.toNat i (p.rounds count.toInt.toNat i) ∧
      p.rounds count.toInt.toNat i ≤ i.unread.length + 1

theorem endsWithData (p : Parser α) [p.Progresses] : p.EndsWithData := fun count i =>
  ⟨begins_rounds p count.toInt.toNat i,
    Nat.le_of_add_right_le (rounds_add_length_le p count.toInt.toNat i)⟩

end Parser

end ObjectFile
