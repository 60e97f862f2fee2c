import ObjectFile.Proofs.Delivery
/-!
# The first fault is final

A step that fails leaves its fault with the reader of the session, and a session whose reader
has a fault does nothing any more: whatever step is taken next, it gives this fault again and
the session stays as it is, with all that is left to read.  Two facts carry this:

* `Session.step_of_failure`: with a fault, a step changes nothing;
* `Session.fst_step`: what a step comes to is what the reader says when it is checked behind
  the step.

From them follows what becomes of a whole course of steps (`Session.first_fault_final`), and
that it makes no difference whether one goes on behind a step that failed
(`Session.decode_eq_result`).
-/

namespace ObjectFile

namespace Reader

variable {r : Reader} {fault : Fault}

theorem check_eq_error_iff : r.check = .error fault ↔ r.failure = some fault := by
  rw [check]
  cases r.failure <;> simp

theorem check_eq_ok_iff : r.check = .ok () ↔ r.failure = none := by
  rw [check]
  cases r.failure <;> simp

end Reader

namespace Session

variable {α β : Type} {s t : Session} {fault : Fault} {st : Step}

/-! ## Sessions that have failed -/

theorem read_bind_of_failure (h : s.reader.failure = some fault) (p : Parser α)
    (f : α → Action β) : (read p >>= f) s = (.error fault, s) := by
  rw [bind_apply, read_apply, Reader.attempt_of_failure h]

-- every step begins with reading
theorem step_of_failure (h : s.reader.failure = some fault) (st : Step) :
    step st s = (.error fault, s) := by
  cases st <;> exact read_bind_of_failure h _ _

theorem result_of_failure (h : s.reader.failure = some fault) : result s = (.error fault, s) := by
  rw [result_eq, Reader.check_eq_error_iff.2 h]
  rfl

/-- There is a result just if there was no fault; it is what has been read. -/
theorem result_eq_ok_iff {o : Object} :
    result s = (.ok o, t) ↔ s.reader.failure = none ∧ o = s.contents.object ∧ t = s := by
  constructor
  · intro h
    cases hfailure : s.reader.failure with
    | none =>
      rw [result_eq, Reader.check_eq_ok_iff.2 hfailure] at h
      cases h
      exact ⟨rfl, rfl, rfl⟩
    | some first =>
      rw [result_of_failure hfailure] at h
      cases h
  · rintro ⟨hfailure, rfl, rfl⟩
    rw [result_eq, Reader.check_eq_ok_iff.2 hfailure]
    rfl

/-! ## Steps that fail -/

theorem fst_step (st : Step) (s : Session) : (step st s).1 = (step st s).2.reader.check := by
  cases hs : s.reader.failure with
  | some first =>
    rw [step_of_failure hs]
    exact (Reader.check_eq_error_iff.2 hs).symm
  | none =>
    -- without a fault the step does what its parser does
    have h := mirrors_step st s hs
    rcases hrun : (((), ·) <$> st.parser s.contents).run s.reader.input with ⟨first | ⟨_, c⟩, i⟩
    · rw [hrun] at h
      obtain ⟨t, ht, hreader⟩ := h
      rw [ht, hreader]
      rfl
    · rw [hrun] at h
      obtain ⟨t, ht, hreader, -⟩ := h
      rw [ht, hreader]
      rfl

theorem failure_of_step (h : step st s = (.error fault, t)) : t.reader.failure = some fault := by
  have hcheck := fst_step st s
  rw [h] at hcheck
  exact Reader.check_eq_error_iff.1 hcheck.symm

theorem failure_of_step_ok (h : step st s = (.ok (), t)) : t.reader.failure = none := by
  have hcheck := fst_step st s
  rw [h] at hcheck
  exact Reader.check_eq_ok_iff.1 hcheck.symm

-- a session with a fault would not have lost it
theorem failure_eq_none_of_step (h : (step st s).2.reader.failure = none) :
    s.reader.failure = none := by
  cases hs : s.reader.failure with
  | none => rfl
  | some first =>
    rw [step_of_failure hs, hs] at h
    cases h

/-! ## Courses of steps -/

theorem course_cons (s : Session) (st : Step) (steps : List Step) :
    s.course (st :: steps) =
      (((step st s).1, (step st s).2.consumed) :: ((step st s).2.course steps).1,
        ((step st s).2.course steps).2) := rfl

theorem course_append (s : Session) (before after : List Step) :
    s.course (before ++ after) =
      ((s.course before).1 ++ ((s.course before).2.course after).1,
        ((s.course before).2.course after).2) := by
  induction before generalizing s with
  | nil => rfl
  | cons st before ih => rw [List.cons_append, course_cons, course_cons, ih, List.cons_append]

/-- Where a course ends that goes on behind another one. -/
theorem snd_course_course (s : Session) (before after : List Step) :
    ((s.course before).2.course after).2 = (s.course (before ++ after)).2 := by
  rw [course_append]

theorem course_of_failure (h : s.reader.failure = some fault) (steps : List Step) :
    s.course steps = (List.replicate steps.length (.error fault, s.consumed), s) := by
  induction steps with
  | nil => rfl
  | cons st steps ih =>
    rw [course_cons, step_of_failure h]
    dsimp only
    rw [ih, List.length_cons, List.replicate_succ]

/-- A course of steps ends without a fault just if it begins so and all its steps succeed. -/
theorem failure_course_eq_none_iff (s : Session) (steps : List Step) :
    (s.course steps).2.reader.failure = none ↔
      s.reader.failure = none ∧ ∀ outcome ∈ (s.course steps).1, outcome.1 = .ok () := by
  induction steps generalizing s with
  | nil => simp [course]
  | cons st steps ih =>
    rw [course_cons]
    dsimp only
    rw [ih, List.forall_mem_cons, fst_step, Reader.check_eq_ok_iff, ← and_assoc]
    exact and_congr_left fun _ => (and_iff_right_of_imp failure_eq_none_of_step).symm

theorem forM_step_bind_result (s : Session) (steps : List Step) :
    (steps.forM step >>= fun _ => result) s = result (s.course steps).2 := by
  induction steps generalizing s with
  | nil => rfl
  | cons st steps ih =>
    have hcons : (List.forM (st :: steps) step >>= fun _ => result) =
        step st >>= fun _ => steps.forM step >>= fun _ => result :=
      bind_assoc (step st) (fun _ => steps.forM step) fun _ => result
    rw [hcons, bind_apply, course_cons]
    rcases hst : step st s with ⟨fault | _, t⟩
    · -- the steps left out change nothing
      have ht := failure_of_step hst
      dsimp only
      rw [course_of_failure ht, result_of_failure ht]
    · exact ih t

/-- Reading a whole object file is taking all steps in order, whatever they come to, and
looking at the result. -/
theorem decode_eq_result (s : Session) : decode s = result (s.course pipeline).2 :=
  forM_step_bind_result s pipeline

/-- The first fault is final.  When a step fails, all steps behind it, the result and the
reading of a whole file give the same fault, and the session stays as it is, the number of
bytes taken and what is left to read included.  There is a result just if no step failed,
whatever the steps were.  So one may take the steps of a whole file without looking at what
they come to. -/
theorem first_fault_final (s : Session) :
    (∀ before st fault t, step st (s.course before).2 = (.error fault, t) →
      (∀ after, s.course (before ++ st :: after) =
        ((s.course before).1 ++ List.replicate (after.length + 1) (.error fault, t.consumed), t)) ∧
      result t = (.error fault, t) ∧ decode t = (.error fault, t)) ∧
    (∀ steps, (∃ o, (result (s.course steps).2).1 = .ok o) ↔
      s.reader.failure = none ∧ ∀ outcome ∈ (s.course steps).1, outcome.1 = .ok ()) ∧
    decode s = result (s.course pipeline).2 := by
  refine ⟨fun before st fault t hst => ?_, fun steps => ?_, decode_eq_result s⟩
  · have ht := failure_of_step hst
    have hresult := result_of_failure ht
    refine ⟨fun after => ?_, hresult, ?_⟩
    · rw [course_append, course_cons, hst]
      dsimp only
      rw [course_of_failure ht, List.replicate_succ]
    · rw [decode_eq_result, course_of_failure ht, hresult]
  · rw [← failure_course_eq_none_iff, result_eq]
    cases hfailure : (s.course steps).2.reader.failure with
    | none => simp [Reader.check, hfailure, Except.map]
    | some first => simp [Reader.check, hfailure, Except.map]

/-- A wrong version, looked for behind a footer. -/
theorem first_fault_final_version :
    let s := ofEvents [.data Envelope.closing, .data [0x02, 0xFF]]
    let t : Session :=
      { reader := ⟨⟨[.data [0xFF]], 8⟩, some (.wrongVersion 2)⟩
        journal := [.footer 7] }
    s.course [.footer, .version, .references, .version] =
        ([(.ok (), 7), (.error (.wrongVersion 2), 8), (.error (.wrongVersion 2), 8),
          (.error (.wrongVersion 2), 8)], t) ∧
      result t = (.error (.wrongVersion 2), t) ∧ decode t = (.error (.wrongVersion 2), t) := by
  intro s t
  have hst : step .version (s.course [.footer]).2 = (.error (.wrongVersion 2), t) := rfl
  obtain ⟨hcourse, hend⟩ := (first_fault_final s).1 [.footer] .version _ t hst
  exact ⟨hcourse [.references, .version], hend⟩

end Session

end ObjectFile
