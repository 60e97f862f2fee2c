import ObjectFile.Proofs.FirstFault
/-!
# Requests behind a fault

What is asked of a reader is answered with the first fault as soon as there was one, and the
reader stays as it is: no request takes a byte or a delivery any more, not even one that asks
for no bytes, one that makes the reader fail in another way or one that would say an early end
of the data in other words.  The rule is kept request by request (`Reader.perform_of_failure`,
`Reader.failure_of_perform`), and so by every course of them (`Reader.fault_stays`).

A request runs one parser, which may read in many parts.  It makes no difference that the
reader is looked at only once, in front of the whole: a reader that keeps the rule at every
part comes to the same (`Reader.attempt_bind`).
-/

namespace ObjectFile

namespace Reader

variable {α β : Type} {r t : Reader} {fault : Fault} {request : Request}

/-! ## Parsers in parts -/

/-- To attempt a sequence is to attempt its parts one after another. -/
theorem attempt_bind (r : Reader) (p : Parser α) (g : α → Parser β) :
    r.attempt (p >>= g) =
      match r.attempt p with
      | (.ok a, t) => t.attempt (g a)
      | (.error fault, t) => (.error fault, t) := by
  cases hr : r.failure with
  | some first => rw [attempt_of_failure hr, attempt_of_failure hr]
  | none =>
    simp only [attempt, hr, Parser.run_bind]
    rcases p.run r.input with ⟨fault | a, i⟩ <;> rfl

/-! ## One request -/

theorem perform_of_failure (h : r.failure = some fault) (request : Request) :
    r.perform request = (.error fault, r) := by
  cases request with
  | check => simp [perform, check_eq_error_iff.2 h, Except.map]
  | failWith other => simp [perform, h, failWith_of_failure _ h]
  | _ => exact attempt_of_failure h _

theorem check_attempt (r : Reader) (p : Parser α) :
    (r.attempt p).2.check = (r.attempt p).1.map fun _ => () := by
  cases hr : r.failure with
  | some first =>
    rw [attempt_of_failure hr]
    exact check_eq_error_iff.2 hr
  | none =>
    simp only [attempt, hr]
    rcases p.run r.input with ⟨fault | a, i⟩ <;> rfl

/-- Behind a request the reader has a fault just if the answer was that fault. -/
theorem check_perform (r : Reader) (request : Request) :
    (r.perform request).2.check = (r.perform request).1.map fun _ => () := by
  cases request with
  | check =>
    show r.check = (r.check.map fun _ => Reply.done).map fun _ => ()
    rcases r.check with fault | _ <;> rfl
  | failWith fault => rfl
  | _ => exact check_attempt r _

theorem failure_of_perform (h : r.perform request = (.error fault, t)) :
    t.failure = some fault := by
  have hcheck := check_perform r request
  rw [h] at hcheck
  exact check_eq_error_iff.1 hcheck

theorem failure_of_perform_ok {reply : Reply} (h : r.perform request = (.ok reply, t)) :
    t.failure = none := by
  have hcheck := check_perform r request
  rw [h] at hcheck
  exact check_eq_ok_iff.1 hcheck

-- a reader with a fault would not have lost it
theorem failure_perform_eq_none_iff (r : Reader) (request : Request) :
    (r.perform request).2.failure = none ↔
      r.failure = none ∧ ∃ reply, (r.perform request).1 = .ok reply := by
  rw [← check_eq_ok_iff, check_perform]
  cases hr : r.failure with
  | some first => simp [perform_of_failure hr, Except.map]
  | none => rcases (r.perform request).1 with fault | reply <;> simp [Except.map]

/-! ## Courses of requests -/

/-- The reader behind requests. -/
def after (r : Reader) (requests : List Request) : Reader :=
  requests.foldl (fun t request => (t.perform request).2) r

theorem serve_cons (r : Reader) (request : Request) (requests : List Request) :
    r.serve (request :: requests) =
      ((r.perform request).1, (r.perform request).2.consumed) ::
        (r.perform request).2.serve requests := rfl

theorem after_cons (r : Reader) (request : Request) (requests : List Request) :
    r.after (request :: requests) = (r.perform request).2.after requests := rfl

theorem serve_append (r : Reader) (before later : List Request) :
    r.serve (before ++ later) = r.serve before ++ (r.after before).serve later := by
  induction before generalizing r with
  | nil => rfl
  | cons request before ih =>
    rw [List.cons_append, serve_cons, serve_cons, after_cons, ih, List.cons_append]

theorem after_append (r : Reader) (before later : List Request) :
    r.after (before ++ later) = (r.after before).after later := List.foldl_append

theorem serve_of_failure (h : r.failure = some fault) (requests : List Request) :
    r.serve requests = List.replicate requests.length (.error fault, r.consumed) := by
  induction requests with
  | nil => rfl
  | cons request requests ih =>
    rw [serve_cons, perform_of_failure h]
    dsimp only
    rw [ih, List.length_cons, List.replicate_succ]

theorem after_of_failure (h : r.failure = some fault) (requests : List Request) :
    r.after requests = r := by
  induction requests with
  | nil => rfl
  | cons request requests ih => rw [after_cons, perform_of_failure h, ih]

theorem failure_after_eq_none_iff (r : Reader) (requests : List Request) :
    (r.after requests).failure = none ↔
      r.failure = none ∧ ∀ answer ∈ r.serve requests, ∃ reply, answer.1 = .ok reply := by
  induction requests generalizing r with
  | nil => simp [after, serve]
  | cons request requests ih =>
    rw [after_cons, ih, failure_perform_eq_none_iff, serve_cons, List.forall_mem_cons, and_assoc]

/-- The first fault stays.  When a request fails, whatever was asked before, every request
behind it is answered with the same fault, and the reader stays as it is, the number of bytes
taken and what is left to read included.  A reader has a fault only if it began with one or a
request has failed. -/
theorem fault_stays (r : Reader) :
    (∀ before request fault t, (r.after before).perform request = (.error fault, t) →
      ∀ later, r.serve (before ++ request :: later) =
          r.serve before ++ List.replicate (later.length + 1) (.error fault, t.consumed) ∧
        r.after (before ++ request :: later) = t) ∧
    ∀ requests, (r.after requests).failure = none ↔
      r.failure = none ∧ ∀ answer ∈ r.serve requests, ∃ reply, answer.1 = .ok reply := by
  refine ⟨fun before request fault t hrequest later => ?_, failure_after_eq_none_iff r⟩
  have ht := failure_of_perform hrequest
  constructor
  · rw [serve_append, serve_cons, hrequest]
    dsimp only
    rw [serve_of_failure ht, List.replicate_succ]
  · rw [after_append, after_cons, hrequest, after_of_failure ht]

/-- A device that fails in the middle of a number, and would go on after that. -/
theorem fault_stays_device :
    let r := ofEvents [.data [0x05, 0x80], .failure .timedOut "late", .data [0x01]]
    let fault := Fault.device .timedOut "late"
    r.serve [.byte, .uvarint, .failWith .noHeader, .take 0, .block 0, .header, .check] =
        (.ok (.byte 5), 1) :: List.replicate 6 (.error fault, 2) ∧
      r.after [.byte, .uvarint, .failWith .noHeader, .take 0, .block 0, .header, .check] =
        ⟨⟨[.data [0x01]], 2⟩, some fault⟩ := by
  intro r fault
  have hrequest : (r.after [.byte]).perform .uvarint =
      (.error fault, ⟨⟨[.data [0x01]], 2⟩, some fault⟩) := by decide +kernel
  exact (fault_stays r).1 [.byte] .uvarint _ _ hrequest
    [.failWith .noHeader, .take 0, .block 0, .header, .check]

end Reader

end ObjectFile
