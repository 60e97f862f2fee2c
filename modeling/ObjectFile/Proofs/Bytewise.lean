import ObjectFile.Proofs.Stream
/-!
# Blocks byte by byte

There are three ways to get a number of bytes: to take them delivery by delivery, to gather them
as a block that is looked at afterwards, and to ask for one byte after another.  They count the
bytes and meet the failures of the device in different places, and yet come to the same, down to
the deliveries that are left (`Reader.block_bytewise`).

The reason is that taking bytes can be interrupted at any place: to take `a + b` bytes is to take
`a` bytes and then `b` more (`Input.takeFrom_add`), also when a delivery reaches over that place
and when the device fails on either side of it.
-/

namespace ObjectFile

namespace Input

/-- The pieces taken so far stand in front of what is taken. -/
theorem takeFrom_eq (got : List (List UInt8)) (need : Nat) (events : List Event)
    (consumed : Nat) :
    takeFrom got need events consumed =
      ((takeFrom [] need events consumed).1.map (got.reverse.flatten ++ ·),
        (takeFrom [] need events consumed).2) := by
  induction events generalizing got need consumed with
  | nil => cases need <;> simp [takeFrom, Except.map]
  | cons event events ih =>
    cases need with
    | zero => simp [takeFrom, Except.map]
    | succ need =>
      cases event with
      | endOfData => simp [takeFrom, Except.map]
      | failure kind message =>
        simp only [takeFrom]
        split
        · exact ih got (need + 1) consumed
        · rfl
      | data bytes =>
        simp only [takeFrom]
        split
        · -- the delivery is one more piece on both sides
          rw [ih (bytes :: got), ih [bytes]]
          generalize takeFrom [] (need + 1 - bytes.length) events _ = taken
          obtain ⟨fault | w, j⟩ := taken <;> simp [Except.map]
        · simp [Except.map]

/-- It makes no difference into how many pieces the bytes taken so far are cut. -/
theorem takeFrom_congr {got got' : List (List UInt8)}
    (h : got.reverse.flatten = got'.reverse.flatten) (need : Nat) (events : List Event)
    (consumed : Nat) : takeFrom got need events consumed = takeFrom got' need events consumed := by
  rw [takeFrom_eq got, takeFrom_eq got', h]

/-- Taking bytes can be interrupted at any place. -/
theorem takeFrom_add (got : List (List UInt8)) (a b : Nat) (events : List Event)
    (consumed : Nat) :
    takeFrom got (a + b) events consumed =
      match takeFrom got a events consumed with
      | (.ok w, j) => takeFrom [w] b j.events j.consumed
      | (.error fault, j) => (.error fault, j) := by
  fun_induction takeFrom got a events consumed with
  | case1 got events consumed =>
    rw [Nat.zero_add]
    exact takeFrom_congr (by simp) b events consumed
  | case2 got need consumed => rw [Nat.succ_add, takeFrom]
  | case3 got need bytes events consumed hdrop ih =>
    have hlen := List.drop_eq_nil_iff.1 hdrop
    have hmore : bytes.drop (need + b + 1) = [] := List.drop_eq_nil_iff.2 (by omega)
    rw [← ih, Nat.succ_add, takeFrom, hmore]
    dsimp only
    congr 1
    omega
  | case4 got need bytes events consumed hdrop =>
    -- the delivery reaches over the place, and what is left of it may reach further or not
    have hlen : need + 1 < bytes.length := by
      have := mt List.drop_eq_nil_iff.2 hdrop
      omega
    cases b with
    | zero =>
      rw [Nat.add_zero, takeFrom]
      simp [takeFrom]
    | succ b =>
      have hplace : need + (b + 1) + 1 = need + 1 + (b + 1) := Nat.add_right_comm _ _ _
      have hlater : (bytes.drop (need + 1)).drop (b + 1) = bytes.drop (need + (b + 1) + 1) := by
        rw [hplace, List.drop_drop]
      have hpieces : (bytes :: got).reverse.flatten =
          [bytes.drop (need + 1), (bytes.take (need + 1) :: got).reverse.flatten].reverse.flatten := by
        simp
      rw [Nat.succ_add]
      simp only [takeFrom, hlater]
      split
      · rw [takeFrom_congr hpieces, List.length_drop]
        congr 1 <;> omega
      · rw [hplace, List.take_add]
        simp [Nat.add_assoc]
  | case5 got need events consumed => rw [Nat.succ_add, takeFrom]
  | case6 got need events consumed message ih => rw [← ih, Nat.succ_add, takeFrom, if_pos rfl]
  | case7 got need kind message events consumed hkind => rw [Nat.succ_add, takeFrom, if_neg hkind]

end Input

namespace Parser

variable {α : Type}

theorem run_take (n : Nat) (i : Input) :
    (take n).run i = Input.takeFrom [] n i.events i.consumed := rfl

theorem take_zero : take 0 = pure [] := by
  refine ext fun i => ?_
  rw [run_take, Input.takeFrom]
  rfl

/-- To take bytes is to take some of them and then the others. -/
theorem take_add (a b : Nat) : take (a + b) = take a >>= fun u => (u ++ ·) <$> take b := by
  refine ext fun i => ?_
  rw [run_take, Input.takeFrom_add, run_bind, run_take]
  rcases Input.takeFrom [] a i.events i.consumed with ⟨fault | u, j⟩
  · rfl
  · dsimp only
    rw [Input.takeFrom_eq, run_map, run_take]
    simp

/-- To take bytes is to take one after another. -/
theorem replicate_byte (n : Nat) : replicate n byte = take n := by
  induction n with
  | zero => rw [replicate_zero, take_zero]
  | succ n ih =>
    rw [replicate_succ, ih, Nat.add_comm n 1, take_add, byte, bind_assoc]
    refine ext fun i => ?_
    rw [run_bind, run_bind]
    rcases hrun : (take 1).run i with ⟨fault | bytes, j⟩
    · rfl
    · -- one byte has been taken, so it is the head of what has been taken
      have hlen : bytes.length = 1 := Input.length_of_take hrun
      obtain ⟨b, rfl⟩ := List.length_eq_one_iff.1 hlen
      rfl

end Parser

namespace Reader

variable {α β : Type} {r t : Reader} {n : Nat}

/-! ## Requests up to the first that fails -/

/-- Carries out requests one after another up to the first that fails. -/
def pursue (r : Reader) : List Request → Except Fault (List Reply) × Reader
  | [] => (.ok [], r)
  | request :: requests =>
    match r.perform request with
    | (.ok reply, t) => ((t.pursue requests).1.map (reply :: ·), (t.pursue requests).2)
    | (.error fault, t) => (.error fault, t)

theorem attempt_pure (h : r.failure = none) (a : α) :
    r.attempt (pure a : Parser α) = (.ok a, r) := by
  rw [attempt_of_run h (Parser.run_pure a _)]
  cases r
  subst h
  rfl

theorem attempt_map (r : Reader) (f : α → β) (p : Parser α) :
    r.attempt (f <$> p) = ((r.attempt p).1.map f, (r.attempt p).2) := by
  cases hr : r.failure with
  | some first =>
    rw [attempt_of_failure hr, attempt_of_failure hr]
    rfl
  | none =>
    simp only [attempt, hr, Parser.run_map]
    rcases p.run r.input with ⟨fault | a, i⟩ <;> rfl

theorem failure_of_attempt {p : Parser α} {a : α} (h : r.attempt p = (.ok a, t)) :
    t.failure = none := by
  have hcheck := check_attempt r p
  rw [h] at hcheck
  exact check_eq_ok_iff.1 hcheck

/-- A request that runs a parser, made so many times, runs the parser so many times. -/
theorem pursue_replicate {p : Parser α} {f : α → Reply} {request : Request}
    (hrequest : ∀ t : Reader, t.perform request = t.attempt (f <$> p)) (h : r.failure = none)
    (n : Nat) :
    r.pursue (List.replicate n request) = r.attempt (List.map f <$> Parser.replicate n p) := by
  induction n generalizing r with
  | zero =>
    rw [Parser.replicate_zero, map_pure, attempt_pure h]
    rfl
  | succ n ih =>
    rw [List.replicate_succ, pursue, hrequest, attempt_map, attempt_map, Parser.replicate_succ,
      attempt_bind]
    rcases hp : r.attempt p with ⟨fault | a, t⟩
    · rfl
    · have ht : t.failure = none := failure_of_attempt hp
      simp only [Except.map, ih ht, attempt_map]
      rcases (t.attempt (Parser.replicate n p)).1 with fault | as <;> rfl

/-! ## Blocks -/

theorem perform_take (r : Reader) (n : Nat) :
    r.perform (.take n) =
      ((r.attempt (.take n)).1.map .bytes, (r.attempt (.take n)).2) :=
  attempt_map r _ _

/-- Gathering a block comes to the same as judging every delivery as it comes. -/
theorem perform_block (r : Reader) (n : Nat) : r.perform (.block n) = r.perform (.take n) := by
  rw [perform, perform, Parser.block_eq_take]

/-- Asking for one byte after another comes to the same as well. -/
theorem pursue_bytes (h : r.failure = none) (n : Nat) :
    r.pursue (List.replicate n .byte) =
      ((r.attempt (.take n)).1.map (List.map .byte), (r.attempt (.take n)).2) := by
  rw [pursue_replicate (fun _ => rfl) h, Parser.replicate_byte, attempt_map]

/-- Two blocks one behind the other are one block. -/
theorem attempt_take_add_of_ok {a b : Nat} {u : List UInt8} (h : r.attempt (.take a) = (.ok u, t)) :
    r.attempt (.take (a + b)) =
      ((t.attempt (.take b)).1.map (u ++ ·), (t.attempt (.take b)).2) := by
  rw [Parser.take_add, attempt_bind, h]
  exact attempt_map t _ _

theorem attempt_take_add_of_error {a b : Nat} {fault : Fault}
    (h : r.attempt (.take a) = (.error fault, t)) :
    r.attempt (.take (a + b)) = (.error fault, t) := by
  rw [Parser.take_add, attempt_bind, h]

theorem perform_block_add (r : Reader) (a b : Nat) :
    ∃ (out : Except Fault (List UInt8 × List UInt8)) (t : Reader),
      r.pursue [.block a, .block b] = (out.map fun (u, v) => [.bytes u, .bytes v], t) ∧
      r.perform (.block (a + b)) = (out.map fun (u, v) => .bytes (u ++ v), t) := by
  simp only [pursue, perform_block, perform_take]
  rcases ha : r.attempt (.take a) with ⟨fault | u, t⟩
  · rw [attempt_take_add_of_error ha]
    exact ⟨.error fault, t, rfl, rfl⟩
  · rw [attempt_take_add_of_ok ha]
    dsimp only [Except.map]
    rcases t.attempt (.take b) with ⟨fault | v, t'⟩
    · exact ⟨.error fault, t', rfl, rfl⟩
    · exact ⟨.ok (u, v), t', rfl, rfl⟩

/-- Bytes are taken just if as many come next. -/
theorem fst_attempt_take_eq_ok_iff (h : r.failure = none) {w : List UInt8} :
    (r.attempt (.take n)).1 = .ok w ↔
      w.length = n ∧ r.input.signals = w.map .byte ++ (r.attempt (.take n)).2.input.signals := by
  constructor
  · intro hw
    obtain ⟨v, hv, -, hsignals⟩ := accepts_of_attempt (Prod.ext hw rfl)
    obtain ⟨hlength, rfl⟩ := Parser.accepts_take.1 hv
    exact ⟨hlength, hsignals⟩
  · rintro ⟨hlength, hsignals⟩
    obtain ⟨i, hi, -⟩ := Input.take_of_bytes hsignals hlength
    rw [attempt_of_run (p := .take n) h hi]

/-- Taking `n` bytes, gathering a block of them and asking for one byte after another, until there
are `n` or there is a fault, come to the same: the same bytes or the same fault, and the same
reader, with the bytes it has counted, the fault it keeps and the deliveries that are left.  There
is a success just if `n` bytes come next.  So a block can be read in two parts, and a block of no
bytes leaves the reader as it is. -/
theorem block_bytewise (h : r.failure = none) :
    (∀ n, ∃ (out : Except Fault (List UInt8)) (t : Reader),
      r.perform (.take n) = (out.map .bytes, t) ∧
      r.perform (.block n) = (out.map .bytes, t) ∧
      r.pursue (List.replicate n .byte) = (out.map (List.map .byte), t) ∧
      ∀ w, out = .ok w ↔ w.length = n ∧ r.input.signals = w.map .byte ++ t.input.signals) ∧
    (∀ a b, ∃ (out : Except Fault (List UInt8 × List UInt8)) (t : Reader),
      r.pursue [.block a, .block b] = (out.map fun (u, v) => [.bytes u, .bytes v], t) ∧
      r.perform (.block (a + b)) = (out.map fun (u, v) => .bytes (u ++ v), t)) ∧
    r.perform (.take 0) = (.ok (.bytes []), r) ∧ r.perform (.block 0) = (.ok (.bytes []), r) := by
  have hzero : r.perform (.take 0) = (.ok (.bytes []), r) := by
    rw [perform_take, Parser.take_zero, attempt_pure h]
    rfl
  refine ⟨fun n => ?_, perform_block_add r, hzero, ?_⟩
  · refine ⟨_, _, perform_take r n, ?_, pursue_bytes h n, fun w => fst_attempt_take_eq_ok_iff h⟩
    rw [perform_block, perform_take]
  · rw [perform_block, hzero]

/-- A device that is interrupted and then fails when two of three bytes have come. -/
theorem block_bytewise_partial :
    let r := ofEvents
      [.data [1], .data [], .failure .interrupted "", .data [2], .failure .timedOut "late", .data [3]]
    let fault := Fault.device .timedOut "late"
    let t : Reader := ⟨⟨[.data [3]], 2⟩, some fault⟩
    r.failure = none ∧ r.perform (.take 3) = (.error fault, t) ∧
      r.perform (.block 3) = (.error fault, t) ∧
      r.pursue (List.replicate 3 .byte) = (.error fault, t) := by
  intro r fault t
  have htake : r.perform (.take 3) = (.error fault, t) := by decide +kernel
  obtain ⟨out, u, hout, hblock, hbytes, -⟩ := (block_bytewise (r := r) rfl).1 3
  rw [hout] at htake
  cases out with
  | ok w => cases htake
  | error first =>
    cases htake
    exact ⟨rfl, hout, hblock, hbytes⟩

end Reader

end ObjectFile
