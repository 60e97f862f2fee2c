import ObjectFile.Proofs.Bytewise
/-!
# Every byte is accounted for

The number of bytes that a reader counts is the number of bytes that it has taken, and these are
the bytes that come first in the deliveries: none is passed over, none is taken twice, and none
comes back (`Reader.Draws`).  Besides bytes a reader takes at most one thing that the device says,
which is what it fails with.

No request takes more than it asks for.  What a request for bytes asks for is their number
(`Reader.Request.size?`); what any other request asks for is the next byte as long as the bytes
so far leave its outcome open.  So with any smaller number of the bytes that it has taken, it takes
all of them and fails (`Reader.Request.Wants`).

Both are kept by every request (`Reader.exists_draws_perform`) and so by every course of them.
In a course of requests for bytes, what is given back is what has been taken, up to the last
request that succeeds (`Reader.draws_returned`).
-/

namespace ObjectFile

namespace Signal

/-- A place without a byte is the end, or something that is no byte stands there. -/
theorem exists_of_stop? {consumed : Nat} {t rest : List Signal} {fault : Fault}
    (h : stop? consumed t = some (fault, rest)) :
    ∃ stop, t = stop ++ rest ∧ bytes stop = [] ∧ stop.length ≤ 1 := by
  cases t with
  | nil =>
    cases h
    exact ⟨[], rfl, rfl, Nat.zero_le 1⟩
  | cons signal t =>
    cases signal with
    | byte b => cases h
    | endOfData | failure =>
      cases h
      exact ⟨[_], rfl, rfl, Nat.le_refl 1⟩

end Signal

namespace Input

/-- What is gone behind the bytes does not count if it is no byte. -/
theorem unread_of_stop {i j : Input} {w : List UInt8} {stop : List Signal}
    (h : i.signals = w.map .byte ++ (stop ++ j.signals)) (hstop : Signal.bytes stop = []) :
    i.unread = w ++ j.unread := by
  rw [← bytes_signals, h, Signal.bytes_append, Signal.bytes_append, Signal.bytes_map_byte, hstop,
    List.nil_append, bytes_signals]

/-- What has been taken and counted is what the unread bytes have lost. -/
theorem Advances.consumed_eq {i j : Input} {w : List UInt8} (h : Advances i j)
    (hw : i.unread = w ++ j.unread) : j.consumed = i.consumed + w.length := by
  obtain ⟨taken, htaken, hconsumed⟩ := h
  rw [htaken] at hw
  rwa [← List.append_cancel_right hw]

end Input

namespace Parser

variable {α : Type} {p : Parser α} {w : List UInt8} {out : Except Fault α}

/-- The parser has to fail if the data ends behind these bytes. -/
def Hungry (p : Parser α) (w : List UInt8) : Prop :=
  ∃ h : Fault → Fault, p.Stops w fun fault => .error (h fault)

/-- A parser that decides on some bytes, or is stopped behind them, is hungry in front of each of
them. -/
theorem hungry_of_not_decides [hp : p.Firm] (h : ∀ v r out, w = v ++ r → ¬ p.Decides v out) :
    p.Hungry w := by
  obtain ⟨f, ⟨h', rfl⟩, hs⟩ | ⟨v, r, out, hw, hdecides⟩ := hp.online w
  · exact ⟨h', hs⟩
  · exact absurd hdecides (h v r out hw)

theorem eq_append_of_take_eq {v r : List UInt8} {k : Nat} (h : w.take k = v ++ r) :
    w = v ++ (r ++ w.drop k) := by
  rw [← List.append_assoc, ← h, List.take_append_drop]

theorem Decides.hungry_take [p.Firm] (h : p.Decides w out) {k : Nat} (hk : k < w.length) :
    p.Hungry (w.take k) := by
  refine hungry_of_not_decides fun v r out' hv hdecides => ?_
  rw [eq_append_of_take_eq hv] at h
  have hnil := (List.append_eq_nil_iff.1 (h.unique hdecides).1).2
  exact absurd (List.drop_eq_nil_iff.1 hnil) (Nat.not_le.2 hk)

theorem Stops.hungry_take [p.Firm] {f : Fault → Except Fault α} (h : p.Stops w f) (k : Nat) :
    p.Hungry (w.take k) := by
  refine hungry_of_not_decides fun v r out hv hdecides => ?_
  rw [eq_append_of_take_eq hv] at h
  exact h.not_decides hdecides

/-- What a parser takes: bytes, in front of each of which it is hungry, and at most one thing
besides them, with which it fails. -/
theorem exists_taken (p : Parser α) [hp : p.Firm] (i : Input) :
    ∃ (w : List UInt8) (stop : List Signal),
      i.signals = w.map .byte ++ (stop ++ (p.run i).2.signals) ∧
      Signal.bytes stop = [] ∧ stop.length ≤ 1 ∧
      (∀ a, (p.run i).1 = .ok a → stop = []) ∧ ∀ k < w.length, p.Hungry (w.take k) := by
  obtain ⟨s, t, hs, ht⟩ := Signal.exists_stop i.signals
  obtain ⟨f, ⟨h, rfl⟩, hstops⟩ | ⟨w, r, out, rfl, hdecides⟩ := hp.online s
  · obtain ⟨fault, rest, hfault⟩ := ht (i.consumed + s.length)
    obtain ⟨j, hrun, hj⟩ := hstops i t fault rest hs hfault
    obtain ⟨stop, rfl, hbytes, hlength⟩ := Signal.exists_of_stop? hfault
    refine ⟨s, stop, by rw [hrun, hj, hs], hbytes, hlength, fun a ha => ?_,
      fun k _ => hstops.hungry_take k⟩
    rw [hrun] at ha
    cases ha
  · obtain ⟨j, hrun, hj⟩ := hdecides i (r.map .byte ++ t) (by simp [hs])
    refine ⟨w, [], ?_, rfl, Nat.zero_le 1, fun _ _ => rfl, fun k hk => hdecides.hungry_take hk⟩
    rw [hrun, hj, hs]
    simp

end Parser

namespace Reader

variable {α : Type} {r t u : Reader} {w v : List UInt8} {request : Request}
  {requests : List Request}

/-! ## Bytes taken -/

/-- The second reader is the first one after these bytes have been taken. -/
structure Draws (r t : Reader) (w : List UInt8) : Prop where
  /-- The bytes are counted. -/
  consumed_eq : t.consumed = r.consumed + w.length
  /-- The bytes come first, and behind them at most one thing is gone that is no byte, and only
  if there was a fault. -/
  signals_eq : ∃ stop, r.input.signals = w.map .byte ++ (stop ++ t.input.signals) ∧
    Signal.bytes stop = [] ∧ stop.length ≤ 1 ∧ (t.failure = none → stop = [])

namespace Draws

theorem of_input_eq (h : t.input = r.input) : r.Draws t [] where
  consumed_eq := congrArg Input.consumed h
  signals_eq := ⟨[], by simp [h], rfl, Nat.zero_le 1, fun _ => rfl⟩

theorem refl (r : Reader) : r.Draws r [] := of_input_eq rfl

theorem trans (h : r.Draws t w) (ht : t.failure = none) (h' : t.Draws u v) :
    r.Draws u (w ++ v) := by
  obtain ⟨stop, hsignals, -, -, hstop⟩ := h.signals_eq
  obtain ⟨stop', hsignals', hrest⟩ := h'.signals_eq
  obtain rfl := hstop ht
  refine ⟨?_, stop', ?_, hrest⟩
  · rw [h'.consumed_eq, h.consumed_eq, List.length_append, Nat.add_assoc]
  · rw [hsignals, List.nil_append, hsignals', List.map_append, List.append_assoc]

/-- The bytes taken and those still to come are all bytes. -/
theorem unread_eq (h : r.Draws t w) : r.input.unread = w ++ t.input.unread := by
  obtain ⟨stop, hsignals, hbytes, -⟩ := h.signals_eq
  exact Input.unread_of_stop hsignals hbytes

theorem unique (h : r.Draws t w) (h' : r.Draws t v) : w = v :=
  List.append_cancel_right (h.unread_eq.symm.trans h'.unread_eq)

end Draws

/-! ## One request -/

/-- With just these bytes to read, the request takes all of them and fails. -/
def Request.Wants (request : Request) (w : List UInt8) : Prop :=
  ∀ (u : Reader) (n : Nat), u.Stands none n (w.map .byte) →
    ∃ fault t, u.perform request = (.error fault, t) ∧ t.consumed = n + w.length

theorem exists_draws_attempt (r : Reader) (p : Parser α) [p.Firm] :
    ∃ w, r.Draws (r.attempt p).2 w ∧ ∀ k < w.length, p.Hungry (w.take k) := by
  cases hr : r.failure with
  | some first =>
    rw [attempt_of_failure hr]
    exact ⟨[], .refl r, fun k hk => absurd hk (Nat.not_lt_zero k)⟩
  | none =>
    obtain ⟨w, stop, hsignals, hbytes, hlength, hok, hhungry⟩ := p.exists_taken r.input
    obtain ⟨out, i, hrun⟩ : ∃ out i, p.run r.input = (out, i) := ⟨_, _, rfl⟩
    rw [hrun] at hsignals hok
    rw [attempt_of_run hr hrun]
    refine ⟨w, ⟨?_, stop, hsignals, hbytes, hlength, fun hnone => ?_⟩, hhungry⟩
    · have hadvances := p.advances r.input
      rw [hrun] at hadvances
      exact hadvances.consumed_eq (Input.unread_of_stop hsignals hbytes)
    · cases out with
      | ok a => exact hok a rfl
      | error fault => cases hnone

theorem Request.wants_of_hungry {p : Parser Reply}
    (hrequest : ∀ u : Reader, u.perform request = u.attempt p) (hp : p.Hungry w) :
    request.Wants w := by
  intro u n hu
  obtain ⟨h, hstops⟩ := hp
  obtain ⟨t, ht, hstands⟩ := hu.attempt_of_stops hstops rfl
  exact ⟨_, t, (hrequest u).trans ht, hstands.consumed_eq⟩

theorem exists_draws_of_attempt {p : Parser Reply} [p.Firm]
    (hrequest : ∀ u : Reader, u.perform request = u.attempt p) (r : Reader) :
    ∃ w, r.Draws (r.perform request).2 w ∧ ∀ k < w.length, request.Wants (w.take k) := by
  obtain ⟨w, hdraws, hhungry⟩ := exists_draws_attempt r p
  rw [← hrequest] at hdraws
  exact ⟨w, hdraws, fun k hk => Request.wants_of_hungry hrequest (hhungry k hk)⟩

/-- Every request takes the bytes that come first, and none that it does not want. -/
theorem exists_draws_perform (r : Reader) (request : Request) :
    ∃ w, r.Draws (r.perform request).2 w ∧ ∀ k < w.length, request.Wants (w.take k) := by
  cases request with
  | check => exact ⟨[], .refl r, fun k hk => absurd hk (Nat.not_lt_zero k)⟩
  | failWith fault => exact ⟨[], .of_input_eq rfl, fun k hk => absurd hk (Nat.not_lt_zero k)⟩
  -- all other requests run a parser
  | _ => exact exists_draws_of_attempt (fun _ => rfl) r

/-! ## Courses of requests -/

theorem exists_draws_after (r : Reader) (requests : List Request) :
    ∃ w, r.Draws (r.after requests) w := by
  induction requests generalizing r with
  | nil => exact ⟨[], .refl r⟩
  | cons request requests ih =>
    obtain ⟨w, hw, -⟩ := exists_draws_perform r request
    rw [after_cons]
    cases ht : (r.perform request).2.failure with
    | some fault => exact ⟨w, by rwa [after_of_failure ht]⟩
    | none =>
      obtain ⟨v, hv⟩ := ih (r.perform request).2
      exact ⟨w ++ v, hw.trans ht hv⟩

/-! ## Requests for bytes -/

/-- The number of bytes that a request for bytes asks for. -/
def Request.size? : Request → Option Nat
  | .byte => some 1
  | .take need => some need
  | .block size => some size
  | _ => none

/-- The bytes that a reply gives. -/
def Reply.payload : Reply → List UInt8
  | .byte b => [b]
  | .bytes bs => bs
  | _ => []

/-- The bytes that answers give, one behind another. -/
def returned (answers : List (Except Fault Reply × Nat)) : List UInt8 :=
  answers.flatMap fun
    | (.ok reply, _) => reply.payload
    | (.error _, _) => []

/-- All requests for bytes take them in the same way and differ in the form of the reply. -/
theorem perform_of_size? {n : Nat} (h : request.size? = some n) :
    ∃ f : List UInt8 → Reply, (∀ w, w.length = n → (f w).payload = w) ∧
      ∀ r : Reader, r.perform request = r.attempt (f <$> Parser.take n) := by
  cases request with
  | byte =>
    cases h
    refine ⟨fun w => .byte (w.headD 0), fun w hw => ?_, fun r => ?_⟩
    · obtain ⟨b, rfl⟩ := List.length_eq_one_iff.1 hw
      rfl
    · rw [perform, Parser.byte, ← map_eq_pure_bind, Functor.map_map]
  | take need =>
    cases h
    exact ⟨.bytes, fun w _ => rfl, fun r => rfl⟩
  | block size =>
    cases h
    exact ⟨.bytes, fun w _ => rfl, fun r => perform_block r _⟩
  | _ => cases h

/-- A request for bytes that succeeds gives the bytes that it has taken, as many as it asks for. -/
theorem draws_payload {n : Nat} (hsize : request.size? = some n) {reply : Reply}
    (h : r.perform request = (.ok reply, t)) :
    r.Draws t reply.payload ∧ reply.payload.length = n := by
  obtain ⟨f, hf, hperform⟩ := perform_of_size? hsize
  obtain ⟨w, hw, hconsumed, hsignals⟩ := accepts_of_attempt ((hperform r).symm.trans h)
  obtain ⟨v, hv, rfl⟩ := Parser.accepts_map.1 hw
  obtain ⟨hlength, rfl⟩ := Parser.accepts_take.1 hv
  rw [hf v hlength]
  exact ⟨⟨hconsumed, [], hsignals, rfl, Nat.zero_le 1, fun _ => rfl⟩, hlength⟩

/-- A request for bytes wants none when it has as many as it asks for. -/
theorem Request.Wants.length_ne {n : Nat} (h : request.Wants w) (hsize : request.size? = some n) :
    w.length ≠ n := by
  rintro rfl
  obtain ⟨f, -, hperform⟩ := perform_of_size? hsize
  have hu : (ofEvents [.data w]).Stands none 0 (w.map .byte ++ []) :=
    ⟨rfl, rfl, by rw [List.append_nil]; exact Input.signals_ofBytes w⟩
  obtain ⟨t, ht, -⟩ := hu.attempt_of_decides ((Parser.decides_take w).map f)
  rw [List.append_nil] at hu
  obtain ⟨fault, u, hfails, -⟩ := h _ _ hu
  rw [hperform, ht] at hfails
  cases hfails

/-- In a course of requests all succeed up to some place, and none does from there on. -/
theorem exists_place_of_failure (r : Reader) (requests : List Request) :
    ∃ done failed, requests = done ++ failed ∧
      (∀ answer ∈ r.serve done, ∃ reply, answer.1 = .ok reply) ∧
      ∀ answer ∈ (r.after done).serve failed, ∃ fault, answer.1 = .error fault := by
  induction requests generalizing r with
  | nil => exact ⟨[], [], rfl, by simp [serve], by simp [serve]⟩
  | cons request requests ih =>
    rcases hrequest : r.perform request with ⟨fault | reply, t⟩
    · refine ⟨[], request :: requests, rfl, by simp [serve], ?_⟩
      show ∀ answer ∈ r.serve (request :: requests), ∃ fault, answer.1 = .error fault
      rw [serve_cons, hrequest]
      dsimp only
      rw [serve_of_failure (failure_of_perform hrequest), List.forall_mem_cons]
      exact ⟨⟨fault, rfl⟩, fun answer hanswer => ⟨fault, by rw [List.eq_of_mem_replicate hanswer]⟩⟩
    · obtain ⟨done, failed, rfl, hdone, hfailed⟩ := ih t
      refine ⟨request :: done, failed, rfl, ?_, ?_⟩
      · rw [serve_cons, hrequest, List.forall_mem_cons]
        exact ⟨⟨reply, rfl⟩, hdone⟩
      · rwa [after_cons, hrequest]

theorem returned_append (answers later : List (Except Fault Reply × Nat)) :
    returned (answers ++ later) = returned answers ++ returned later := List.flatMap_append

theorem returned_of_error {answers : List (Except Fault Reply × Nat)}
    (h : ∀ answer ∈ answers, ∃ fault, answer.1 = .error fault) : returned answers = [] := by
  refine List.flatMap_eq_nil_iff.2 ?_
  rintro ⟨outcome, consumed⟩ hanswer
  obtain ⟨fault, rfl⟩ := h _ hanswer
  rfl

/-- What is given back by requests for bytes that all succeed is what they take. -/
theorem draws_returned (hsize : ∀ request ∈ requests, ∃ n, request.size? = some n)
    (h : ∀ answer ∈ r.serve requests, ∃ reply, answer.1 = .ok reply) :
    r.Draws (r.after requests) (returned (r.serve requests)) := by
  induction requests generalizing r with
  | nil => exact .refl r
  | cons request requests ih =>
    obtain ⟨⟨n, hn⟩, hlater⟩ := List.forall_mem_cons.1 hsize
    rcases hrequest : r.perform request with ⟨fault | reply, t⟩ <;>
      rw [serve_cons, hrequest, List.forall_mem_cons] at h
    · obtain ⟨⟨reply, hreply⟩, -⟩ := h
      cases hreply
    · rw [serve_cons, after_cons, hrequest]
      exact (draws_payload hn hrequest).1.trans (failure_of_perform_ok hrequest) (ih hlater h.2)

/-- The bytes that a reader counts are those that it has taken, and they come first in the
deliveries, those of requests that failed included.  Between any two moments it takes the bytes
that come next, as many as it counts, so the count never goes down.

One request takes no byte that it does not want, and a request for bytes takes no more than it asks
for; if it succeeds, it takes as many and gives back just these.  So in a course of requests for
bytes, what they give back, one behind another, are the bytes up to the last success, all of them
and in their order. -/
theorem bytes_accounted (events : List Event) :
    let r := ofEvents events
    (∀ requests, ∃ w, events.flatMap Event.payload = w ++ (r.after requests).input.unread ∧
      (r.after requests).consumed = w.length) ∧
    (∀ before later, ∃ w, (r.after before).Draws (r.after (before ++ later)) w) ∧
    (∀ before request, ∃ w, (r.after before).Draws (r.after (before ++ [request])) w ∧
      (∀ k < w.length, request.Wants (w.take k)) ∧
      ∀ n, request.size? = some n → w.length ≤ n ∧
        ∀ reply, ((r.after before).perform request).1 = .ok reply →
          reply.payload = w ∧ w.length = n) ∧
    ∀ requests, (∀ request ∈ requests, ∃ n, request.size? = some n) →
      ∃ done failed, requests = done ++ failed ∧
        (∀ answer ∈ r.serve done, ∃ reply, answer.1 = .ok reply) ∧
        (∀ answer ∈ (r.after done).serve failed, ∃ fault, answer.1 = .error fault) ∧
        r.Draws (r.after done) (returned (r.serve requests)) := by
  intro r
  refine ⟨fun requests => ?_, fun before later => ?_, fun before request => ?_,
    fun requests hsize => ?_⟩
  · obtain ⟨w, hw⟩ := exists_draws_after r requests
    exact ⟨w, hw.unread_eq, hw.consumed_eq.trans (Nat.zero_add _)⟩
  · rw [after_append]
    exact exists_draws_after _ later
  · obtain ⟨w, hdraws, hwants⟩ := exists_draws_perform (r.after before) request
    rw [after_append]
    refine ⟨w, hdraws, hwants, fun n hn => ⟨?_, fun reply hreply => ?_⟩⟩
    · refine Nat.le_of_not_lt fun hlt => ?_
      exact (hwants n hlt).length_ne hn (List.length_take_of_le (Nat.le_of_lt hlt))
    · obtain ⟨hpayload, hlength⟩ := draws_payload hn (Prod.ext hreply rfl)
      obtain rfl := hpayload.unique hdraws
      exact ⟨rfl, hlength⟩
  · obtain ⟨done, failed, rfl, hdone, hfailed⟩ := exists_place_of_failure r requests
    refine ⟨done, failed, rfl, hdone, hfailed, ?_⟩
    rw [serve_append, returned_append, returned_of_error hfailed, List.append_nil]
    exact draws_returned (fun request h => hsize request (List.mem_append_left _ h)) hdone

/-- A device that is interrupted, and then fails when one of the last two bytes has come. -/
theorem bytes_accounted_late :
    let events : List Event := [.data [1, 2], .failure .interrupted "", .data [3, 4, 5],
      .failure .timedOut "late", .data [6]]
    let r := ofEvents events
    let requests : List Request := [.byte, .block 3, .take 2, .byte]
    (∀ request ∈ requests, ∃ n, request.size? = some n) ∧ (r.after requests).consumed = 5 ∧
      (∃ w : List UInt8, [1, 2, 3, 4, 5, 6] = w ++ (r.after requests).input.unread ∧ w.length = 5) ∧
      ∃ done failed, requests = done ++ failed ∧
        (∀ answer ∈ (r.after done).serve failed, ∃ fault, answer.1 = .error fault) ∧
        r.Draws (r.after done) [1, 2, 3, 4] := by
  intro events r requests
  obtain ⟨hcount, -, -, hreturned⟩ := bytes_accounted events
  have hsize : ∀ request ∈ requests, ∃ n, request.size? = some n := by
    simp [requests, Request.size?]
  have hconsumed : (r.after requests).consumed = 5 := by decide +kernel
  have hbytes : returned (r.serve requests) = [1, 2, 3, 4] := by decide +kernel
  obtain ⟨w, hw, hlength⟩ := hcount requests
  obtain ⟨done, failed, hsplit, -, hfailed, hdraws⟩ := hreturned requests hsize
  rw [hbytes] at hdraws
  exact ⟨hsize, hconsumed, ⟨w, hw, hlength.symm.trans hconsumed⟩, done, failed, hsplit, hfailed,
    hdraws⟩

end Reader

end ObjectFile
