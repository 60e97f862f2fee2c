import ObjectFile.Fault
/-!
# Inputs

The bytes of an object file arrive from a device in deliveries.  A delivery brings some
bytes, or the news that there are none at the moment, or a failure.  An input is the list
of the deliveries still to come together with the number of bytes taken so far.

There are two ways of taking bytes: `take` judges every delivery as it comes, and `block`
first gathers what there is up to a limit and judges the whole afterwards, as one reads a
block whose length is only claimed by the data.  Both take deliveries strictly in order,
ask for no delivery when nothing is missing any more, and leave the unused part of a
delivery for the next taking.

`Input.Advances` says what every way of taking bytes has in common: it takes a front part
of the unread bytes and counts them.
-/

namespace ObjectFile

/-- What one request to the device brings. -/
inductive Event where
  /-- Bytes. -/
  | data (bytes : List UInt8)
  /-- No bytes: the end of what there is. -/
  | endOfData
  /-- A failure. -/
  | failure (kind : DeviceError) (message : String)
deriving DecidableEq, Repr

namespace Event

/-- The bytes that a delivery brings. -/
def payload : Event → List UInt8
  | data bytes => bytes
  | endOfData => []
  | failure _ _ => []

/-- Bytes in pieces of at most `size` bytes. -/
def pieces (size : Nat) (bytes : List UInt8) : List Event :=
  go [] bytes.length bytes
where
  /-- Cuts off at most so many pieces and adds them to the pieces already cut. -/
  go (cut : List Event) : Nat → List UInt8 → List Event
    | 0, rest => (data rest :: cut).reverse
    | fuel + 1, rest =>
      match rest.drop size with
      | [] => (data rest :: cut).reverse
      | later => go (data (rest.take size) :: cut) fuel later

/-- The same deliveries from a device that brings at most `size` bytes at a time. -/
def limit (size : Nat) (events : List Event) : List Event :=
  events.flatMap fun
    | data bytes => pieces size bytes
    | event => [event]

end Event

/-- The deliveries still to come and the number of bytes taken from those before. -/
structure Input where
  /-- What the device will bring, in order. -/
  events : List Event
  /-- How many bytes have been taken. -/
  consumed : Nat := 0
deriving DecidableEq, Repr

namespace Input

/-- An input that delivers the bytes in one piece. -/
def ofBytes (bytes : List UInt8) : Input := ⟨[.data bytes], 0⟩

/-- The bytes that the deliveries still to come will bring. -/
def unread (i : Input) : List UInt8 := i.events.flatMap Event.payload

/-- The later input is what the earlier one leaves after a front part of its bytes has been
taken and counted. -/
def Advances (i j : Input) : Prop :=
  ∃ taken, i.unread = taken ++ j.unread ∧ j.consumed = i.consumed + taken.length

namespace Advances

theorem refl (i : Input) : Advances i i := ⟨[], by simp⟩

theorem trans {i j k : Input} : Advances i j → Advances j k → Advances i k := by
  rintro ⟨t, ht, hc⟩ ⟨u, hu, hd⟩
  exact ⟨t ++ u, by simp [ht, hu], by simp [hd, hc]; omega⟩

/-- No bytes come back. -/
theorem length_le {i j : Input} (h : Advances i j) : j.unread.length ≤ i.unread.length := by
  obtain ⟨t, ht, -⟩ := h
  simp [ht]

/-- Bytes taken and bytes to come are together always as many. -/
theorem consumed_add {i j : Input} (h : Advances i j) :
    j.consumed + j.unread.length = i.consumed + i.unread.length := by
  obtain ⟨t, ht, hc⟩ := h
  simp [ht, hc]
  omega

theorem consumed_le {i j : Input} (h : Advances i j) : i.consumed ≤ j.consumed := by
  obtain ⟨t, -, hc⟩ := h
  omega

end Advances

/-! ## Taking a number of bytes -/

/-- Takes so many bytes more from the deliveries; `got` are the pieces taken so far, the
latest first. -/
def takeFrom : List (List UInt8) → Nat → List Event → Nat → Except Fault (List UInt8) × Input
  | got, 0, events, consumed => (.ok got.reverse.flatten, ⟨events, consumed⟩)
  | _, _ + 1, [], consumed => (.error (.truncated consumed), ⟨[], consumed⟩)
  | got, need + 1, .data bytes :: events, consumed =>
    match bytes.drop (need + 1) with
    | [] =>
      takeFrom (bytes :: got) (need + 1 - bytes.length) events (consumed + bytes.length)
    | later =>
      (.ok (bytes.take (need + 1) :: got).reverse.flatten,
        ⟨.data later :: events, consumed + (need + 1)⟩)
  | _, _ + 1, .endOfData :: events, consumed =>
    (.error (.truncated consumed), ⟨events, consumed⟩)
  | got, need + 1, .failure kind message :: events, consumed =>
    if kind = .interrupted then takeFrom got (need + 1) events consumed
    else (.error (.ofDevice kind message consumed), ⟨events, consumed⟩)

/-- Takes exactly `need` bytes, or fails at the first delivery that prevents it. -/
def take (need : Nat) (i : Input) : Except Fault (List UInt8) × Input :=
  takeFrom [] need i.events i.consumed

theorem advances_takeFrom (got : List (List UInt8)) (need : Nat) (events : List Event)
    (consumed : Nat) : Advances ⟨events, consumed⟩ (takeFrom got need events consumed).2 := by
  fun_induction takeFrom got need events consumed with
  | case1 => exact .refl _
  | case2 => exact .refl _
  | case3 got need bytes events consumed hdrop ih =>
    exact .trans ⟨bytes, by simp [unread, Event.payload]⟩ ih
  | case4 got need bytes events consumed hdrop =>
    refine ⟨bytes.take (need + 1), by simp [unread, Event.payload, ← List.append_assoc], ?_⟩
    have : need + 1 ≤ bytes.length := by
      have := mt List.drop_eq_nil_iff.2 hdrop
      omega
    simp [Nat.min_eq_left this]
  | case5 => exact ⟨[], by simp [unread, Event.payload]⟩
  | case6 got need events consumed message ih =>
    exact .trans ⟨[], by simp [unread, Event.payload]⟩ ih
  | case7 => exact ⟨[], by simp [unread, Event.payload]⟩

theorem advances_take (need : Nat) (i : Input) : Advances i (i.take need).2 :=
  advances_takeFrom [] need i.events i.consumed

/-- A taking that succeeds gives the next bytes, as many as were missing. -/
theorem takeFrom_eq_ok {got : List (List UInt8)} {need : Nat} {events : List Event}
    {consumed : Nat} {bytes : List UInt8} {j : Input}
    (h : takeFrom got need events consumed = (.ok bytes, j)) :
    got.reverse.flatten ++ events.flatMap Event.payload = bytes ++ j.unread ∧
      bytes.length = got.reverse.flatten.length + need := by
  fun_induction takeFrom got need events consumed with
  | case1 =>
    cases h
    simp [unread]
  | case2 => cases h
  | case3 got need piece events consumed hdrop ih =>
    obtain ⟨hsplit, hlen⟩ := ih h
    have := List.drop_eq_nil_iff.1 hdrop
    simp at hsplit hlen
    refine ⟨by simpa [Event.payload] using hsplit, ?_⟩
    simp
    omega
  | case4 got need piece events consumed hdrop =>
    cases h
    have : need + 1 ≤ piece.length := by
      have := mt List.drop_eq_nil_iff.2 hdrop
      omega
    refine ⟨by simp [unread, Event.payload, ← List.append_assoc (List.take _ piece)], ?_⟩
    simp [Nat.min_eq_left this]
  | case5 => cases h
  | case6 _ _ _ _ _ ih => simpa [Event.payload] using ih h
  | case7 => cases h

theorem unread_of_take {need : Nat} {i j : Input} {bytes : List UInt8}
    (h : i.take need = (.ok bytes, j)) : i.unread = bytes ++ j.unread := by
  simpa [unread] using (takeFrom_eq_ok h).1

theorem length_of_take {need : Nat} {i j : Input} {bytes : List UInt8}
    (h : i.take need = (.ok bytes, j)) : bytes.length = need := by
  simpa using (takeFrom_eq_ok h).2

/-! ## Taking a block -/

/-- What was gathered up to a limit. -/
structure Gathered where
  /-- The pieces, the latest first. -/
  pieces : List (List UInt8)
  /-- The deliveries still to come. -/
  rest : List Event
  /-- The failure that ended the gathering, if one did. -/
  failure : Option (DeviceError × String)

/-- Gathers bytes until the limit is reached, none come any more, or the device fails. -/
def gather : List (List UInt8) → Nat → List Event → Gathered
  | got, 0, events => ⟨got, events, none⟩
  | got, _ + 1, [] => ⟨got, [], none⟩
  | got, limit + 1, .data bytes :: events =>
    match bytes.drop (limit + 1) with
    | [] => gather (bytes :: got) (limit + 1 - bytes.length) events
    | later => ⟨bytes.take (limit + 1) :: got, .data later :: events, none⟩
  | got, _ + 1, .endOfData :: events => ⟨got, events, none⟩
  | got, limit + 1, .failure kind message :: events =>
    if kind = .interrupted then gather got (limit + 1) events
    else ⟨got, events, some (kind, message)⟩

/-- Takes a block of `size` bytes: gathers as many and then looks whether all came. -/
def block (size : Nat) (i : Input) : Except Fault (List UInt8) × Input :=
  let gathered := gather [] size i.events
  let bytes := gathered.pieces.reverse.flatten
  let j : Input := ⟨gathered.rest, i.consumed + bytes.length⟩
  match gathered.failure with
  | some (kind, message) => (.error (.ofDevice kind message j.consumed), j)
  | none => if bytes.length < size then (.error (.truncated j.consumed), j) else (.ok bytes, j)

theorem gather_unread (got : List (List UInt8)) (limit : Nat) (events : List Event) :
    got.reverse.flatten ++ events.flatMap Event.payload =
      (gather got limit events).pieces.reverse.flatten ++
        (gather got limit events).rest.flatMap Event.payload := by
  fun_induction gather got limit events with
  | case1 => rfl
  | case2 => rfl
  | case3 got limit bytes events hdrop ih => simp [← ih, Event.payload]
  | case4 got limit bytes events hdrop =>
    simp [Event.payload, ← List.append_assoc (List.take _ bytes)]
  | case5 => simp [Event.payload]
  | case6 got limit events message ih => simp [← ih, Event.payload]
  | case7 => simp [Event.payload]

theorem advances_block (size : Nat) (i : Input) : Advances i (i.block size).2 := by
  have h : (i.block size).2 = ⟨(gather [] size i.events).rest,
      i.consumed + (gather [] size i.events).pieces.reverse.flatten.length⟩ := by
    unfold block
    dsimp only
    split
    · rfl
    · split <;> rfl
  rw [h]
  exact ⟨_, by simpa [unread] using gather_unread [] size i.events, rfl⟩

end Input

end ObjectFile
