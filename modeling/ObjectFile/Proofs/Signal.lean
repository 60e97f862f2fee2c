import ObjectFile.Parser
/-!
# What a device says, byte by byte

It does not matter in which pieces the bytes of an object file arrive, nor how often the
device is interrupted in between.  What matters is the sequence of *signals*: the bytes one
by one, and between them the news that there are none and the failures that are not mere
interruptions.  This file gives that view of an input and says what the two ways of taking
bytes do in terms of it.

* `Input.take_of_bytes`: when enough bytes come first, just these are taken.
* `Input.take_of_stop`: when something else comes first, that is the fault.
* `Input.block_eq_take`: gathering a block and judging it afterwards comes to the same as
  judging every delivery as it comes.
-/

namespace ObjectFile

/-- What a device says when it is asked for one byte. -/
inductive Signal where
  /-- A byte. -/
  | byte (b : UInt8)
  /-- There are none. -/
  | endOfData
  /-- A failure that is not a mere interruption. -/
  | failure (kind : DeviceError) (message : String)
deriving DecidableEq, Repr

namespace Signal

/-- What comes of asking for a byte, after so many bytes, when the signals do not begin with
one: the fault and the signals that are left. -/
def stop? (consumed : Nat) : List Signal → Option (Fault × List Signal)
  | [] => some (.truncated consumed, [])
  | byte _ :: _ => none
  | endOfData :: rest => some (.truncated consumed, rest)
  | failure kind message :: rest => some (.ofDevice kind message consumed, rest)

/-- The bytes among the signals. -/
def bytes : List Signal → List UInt8
  | [] => []
  | byte b :: rest => b :: bytes rest
  | endOfData :: rest => bytes rest
  | failure _ _ :: rest => bytes rest

@[simp] theorem bytes_map_byte (w : List UInt8) : bytes (w.map byte) = w := by
  induction w with
  | nil => rfl
  | cons b w ih => simp [bytes, ih]

@[simp] theorem bytes_append (s t : List Signal) : bytes (s ++ t) = bytes s ++ bytes t := by
  induction s with
  | nil => rfl
  | cons signal s ih => cases signal <;> simp [bytes, ih]

/-- Signals are bytes up to a place where there is no byte. -/
theorem exists_stop (signals : List Signal) :
    ∃ (w : List UInt8) (t : List Signal), signals = w.map byte ++ t ∧
      ∀ consumed, ∃ fault rest, stop? consumed t = some (fault, rest) := by
  induction signals with
  | nil => exact ⟨[], [], rfl, fun _ => ⟨_, _, rfl⟩⟩
  | cons signal signals ih =>
    cases signal with
    | byte b =>
      obtain ⟨w, t, rfl, ht⟩ := ih
      exact ⟨b :: w, t, rfl, ht⟩
    | endOfData => exact ⟨[], .endOfData :: signals, rfl, fun _ => ⟨_, _, rfl⟩⟩
    | failure kind message =>
      exact ⟨[], .failure kind message :: signals, rfl, fun _ => ⟨_, _, rfl⟩⟩

/-- Bytes in front of a place where there is no byte are a front part of all bytes in front
of that place. -/
theorem split_at_stop {u w : List UInt8} {s t rest : List Signal} {consumed : Nat}
    {fault : Fault} (h : u.map byte ++ s = w.map byte ++ t)
    (ht : stop? consumed t = some (fault, rest)) :
    ∃ v, w = u ++ v ∧ s = v.map byte ++ t := by
  induction u generalizing w with
  | nil => exact ⟨w, rfl, h⟩
  | cons b u ih =>
    cases w with
    | nil =>
      rw [List.map_cons, List.cons_append, List.map_nil, List.nil_append] at h
      rw [← h, stop?] at ht
      cases ht
    | cons c w =>
      simp only [List.map_cons, List.cons_append, List.cons.injEq, Signal.byte.injEq] at h
      obtain ⟨rfl, h⟩ := h
      obtain ⟨v, rfl, hs⟩ := ih h
      exact ⟨v, rfl, hs⟩

/-- The same for bytes that are at most as many. -/
theorem split_at_length {u w : List UInt8} {s t : List Signal}
    (h : u.map byte ++ s = w.map byte ++ t) (hle : u.length ≤ w.length) :
    ∃ v, w = u ++ v ∧ s = v.map byte ++ t := by
  induction u generalizing w with
  | nil => exact ⟨w, rfl, h⟩
  | cons b u ih =>
    cases w with
    | nil => simp at hle
    | cons c w =>
      simp only [List.map_cons, List.cons_append, List.cons.injEq, Signal.byte.injEq] at h
      obtain ⟨rfl, h⟩ := h
      obtain ⟨v, rfl, hs⟩ := ih h (by simpa using hle)
      exact ⟨v, rfl, hs⟩

end Signal

/-- The signals of a delivery. -/
def Event.signals : Event → List Signal
  | data bytes => bytes.map .byte
  | endOfData => [.endOfData]
  | failure kind message => if kind = .interrupted then [] else [.failure kind message]

theorem Event.bytes_signals (e : Event) : Signal.bytes e.signals = e.payload := by
  cases e with
  | data bytes => exact Signal.bytes_map_byte bytes
  | endOfData => rfl
  | failure kind message =>
    rw [Event.signals]
    split <;> rfl

namespace Input

/-- The signals that the deliveries still to come will bring. -/
def signals (i : Input) : List Signal := i.events.flatMap Event.signals

theorem bytes_signals (i : Input) : Signal.bytes i.signals = i.unread := by
  rcases i with ⟨events, consumed⟩
  induction events with
  | nil => rfl
  | cons e events ih =>
    show Signal.bytes (e.signals ++ events.flatMap Event.signals) = _
    rw [Signal.bytes_append, Event.bytes_signals]
    exact congrArg (e.payload ++ ·) ih

@[simp] theorem signals_ofBytes (s : List UInt8) : (ofBytes s).signals = s.map .byte := by
  simp [signals, ofBytes, Event.signals]

/-! ## Inputs that differ only in how the bytes are cut into pieces -/

/-- The two inputs bring the same signals, and as many bytes have been taken. -/
structure Alike (i j : Input) : Prop where
  signals_eq : i.signals = j.signals
  consumed_eq : i.consumed = j.consumed

namespace Alike

/-- What comes out of alike inputs is alike as soon as the signals left are the same. -/
theorem of_advances {i j k l : Input} (h : Alike i j) (hik : Advances i k)
    (hjl : Advances j l) (hkl : k.signals = l.signals) : Alike k l := by
  refine ⟨hkl, ?_⟩
  have hi := hik.consumed_add
  have hj := hjl.consumed_add
  have hunread : i.unread = j.unread := by rw [← bytes_signals, ← bytes_signals, h.1]
  have hleft : k.unread = l.unread := by rw [← bytes_signals, ← bytes_signals, hkl]
  rw [hunread, hleft, h.2] at hi
  omega

end Alike

/-! ## Taking bytes -/

theorem takeFrom_of_bytes {got : List (List UInt8)} {need : Nat} {events : List Event}
    {consumed : Nat} {w : List UInt8} {t : List Signal}
    (h : events.flatMap Event.signals = w.map .byte ++ t) (hw : w.length = need) :
    ∃ j, takeFrom got need events consumed = (.ok (got.reverse.flatten ++ w), j) ∧
      j.signals = t := by
  fun_induction takeFrom got need events consumed generalizing w with
  | case1 got events consumed =>
    obtain rfl := List.length_eq_zero_iff.1 hw
    exact ⟨⟨events, consumed⟩, by simp, h⟩
  | case2 got need consumed =>
    have := congrArg List.length h
    simp at this
    omega
  | case3 got need bytes events consumed hdrop ih =>
    -- the delivery is used up, and the rest of `w` comes from those behind it
    have hlen := List.drop_eq_nil_iff.1 hdrop
    obtain ⟨v, rfl, hv⟩ := Signal.split_at_length h (by omega)
    obtain ⟨j, hj, hs⟩ := ih hv (by simp at hw; omega)
    exact ⟨j, by simpa using hj, hs⟩
  | case4 got need bytes events consumed hdrop =>
    -- `w` is a front part of the delivery, and what is left of this stays
    have hlen := mt List.drop_eq_nil_iff.2 hdrop
    obtain ⟨v, rfl, hv⟩ := Signal.split_at_length h.symm (by omega)
    rw [← Nat.succ_eq_add_one, ← hw, List.take_left, List.drop_left]
    exact ⟨⟨.data v :: events, consumed + w.length⟩, by simp, hv.symm⟩
  | case5 got need events consumed =>
    cases w with
    | nil => simp at hw
    | cons b w => cases h
  | case6 got need events consumed message ih => exact ih (by simpa [Event.signals] using h) hw
  | case7 got need events consumed kind message hkind =>
    cases w with
    | nil => simp at hw
    | cons b w => simp [Event.signals, hkind] at h

theorem takeFrom_of_stop {got : List (List UInt8)} {need : Nat} {events : List Event}
    {consumed : Nat} {w : List UInt8} {t rest : List Signal} {fault : Fault}
    (h : events.flatMap Event.signals = w.map .byte ++ t) (hw : w.length < need)
    (ht : Signal.stop? (consumed + w.length) t = some (fault, rest)) :
    ∃ j, takeFrom got need events consumed = (.error fault, j) ∧ j.signals = rest := by
  fun_induction takeFrom got need events consumed generalizing w with
  | case1 => simp at hw
  | case2 got need consumed =>
    simp only [List.flatMap_nil, List.nil_eq, List.append_eq_nil_iff, List.map_eq_nil_iff] at h
    obtain ⟨rfl, rfl⟩ := h
    cases ht
    exact ⟨_, rfl, rfl⟩
  | case3 got need bytes events consumed hdrop ih =>
    obtain ⟨v, rfl, hv⟩ := Signal.split_at_stop h ht
    exact ih hv (by simp at hw; omega) (by simpa [Nat.add_assoc] using ht)
  | case4 got need bytes events consumed hdrop =>
    -- the delivery would lie in front of the stop, and yet have more bytes than are missing
    exfalso
    obtain ⟨v, rfl, hv⟩ := Signal.split_at_stop h ht
    have := mt List.drop_eq_nil_iff.2 hdrop
    simp at hw
    omega
  | case5 got need events consumed =>
    cases w with
    | nil =>
      cases h
      cases ht
      exact ⟨_, rfl, rfl⟩
    | cons b w => cases h
  | case6 got need events consumed message ih =>
    exact ih (by simpa [Event.signals] using h) hw ht
  | case7 got need events consumed kind message hkind =>
    cases w with
    | nil =>
      simp only [List.flatMap_cons, Event.signals, hkind, if_false, List.map_nil,
        List.nil_append, List.singleton_append] at h
      subst h
      cases ht
      exact ⟨_, rfl, rfl⟩
    | cons b w => simp [Event.signals, hkind] at h

/-- When the signals begin with enough bytes, just these are taken. -/
theorem take_of_bytes {need : Nat} {i : Input} {w : List UInt8} {t : List Signal}
    (h : i.signals = w.map .byte ++ t) (hw : w.length = need) :
    ∃ j, i.take need = (.ok w, j) ∧ j.signals = t := by
  obtain ⟨j, hj, ht⟩ : ∃ j, takeFrom [] need i.events i.consumed =
      (.ok (([] : List (List UInt8)).reverse.flatten ++ w), j) ∧ j.signals = t :=
    takeFrom_of_bytes h hw
  exact ⟨j, hj, ht⟩

/-- When something else than a byte comes before there are enough, that is the fault. -/
theorem take_of_stop {need : Nat} {i : Input} {w : List UInt8} {t rest : List Signal}
    {fault : Fault} (h : i.signals = w.map .byte ++ t) (hw : w.length < need)
    (ht : Signal.stop? (i.consumed + w.length) t = some (fault, rest)) :
    ∃ j, i.take need = (.error fault, j) ∧ j.signals = rest :=
  takeFrom_of_stop h hw ht

/-! ## Taking a block -/

/-- The judgement on what was gathered for a block of `size` bytes that begins after
`consumed` bytes. -/
def Gathered.judge (size consumed : Nat) (g : Gathered) : Except Fault (List UInt8) × Input :=
  let bytes := g.pieces.reverse.flatten
  let j : Input := ⟨g.rest, consumed + bytes.length⟩
  match g.failure with
  | some (kind, message) => (.error (.ofDevice kind message j.consumed), j)
  | none => if bytes.length < size then (.error (.truncated j.consumed), j) else (.ok bytes, j)

/-- Judging every delivery as it comes is judging the whole: the pieces taken so far count
for the size and for what has been consumed. -/
theorem takeFrom_eq_judge (got : List (List UInt8)) (need : Nat) (events : List Event)
    (consumed : Nat) :
    takeFrom got need events (consumed + got.reverse.flatten.length) =
      (gather got need events).judge (got.reverse.flatten.length + need) consumed := by
  fun_induction gather got need events with
  | case1 => simp [takeFrom, Gathered.judge]
  | case2 => simp [takeFrom, Gathered.judge]
  | case3 got need bytes events hdrop ih =>
    have hlen := List.drop_eq_nil_iff.1 hdrop
    rw [takeFrom, hdrop]
    simp only [List.reverse_cons, List.flatten_append, List.flatten_singleton,
      List.length_append] at ih ⊢
    rw [Nat.add_assoc, ih]
    congr 1
    omega
  | case4 got need bytes events hdrop =>
    have hlen : need + 1 ≤ bytes.length := by
      have := mt List.drop_eq_nil_iff.2 hdrop
      omega
    rw [takeFrom]
    split
    · contradiction
    · simp [Gathered.judge, Nat.min_eq_left hlen, Nat.add_assoc]
  | case5 => simp [takeFrom, Gathered.judge]
  | case6 got need events message ih => rw [takeFrom, if_pos rfl, ih]
  | case7 got need events kind message hkind =>
    rw [takeFrom, if_neg hkind]
    rfl

/-- Both ways of taking bytes come to the same, whatever the device says. -/
theorem block_eq_take (size : Nat) (i : Input) : i.block size = i.take size := by
  have h := takeFrom_eq_judge [] size i.events i.consumed
  simp only [List.reverse_nil, List.flatten_nil, List.length_nil, Nat.add_zero,
    Nat.zero_add] at h
  exact h.symm

end Input

end ObjectFile
