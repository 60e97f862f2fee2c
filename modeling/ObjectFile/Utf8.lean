/-!
# Reading text from bytes that may be ill-formed

Names are stored as bytes that ought to be UTF-8.  Bytes that are not are replaced: every
maximal part that cannot be completed to a character becomes one U+FFFD.  The bytes are
read from front to back by an automaton whose state is the text so far and, after the lead
byte of a longer character, what that character still needs.

Well-formed text is read back unchanged (`decode_encode`).
-/

namespace ObjectFile.Utf8

/-- A character of which some bytes have been read but not all. -/
structure Pending where
  /-- How many bytes are still missing, less one. -/
  more : Nat
  /-- The least value the next byte may have. -/
  low : Nat
  /-- The greatest value the next byte may have. -/
  high : Nat
  /-- What the payload bits read so far denote. -/
  value : Nat
deriving DecidableEq, Repr

/-- What a lead byte announces.  The bounds on the second byte exclude overlong forms
(after `E0` and `F0`), surrogates (after `ED`) and values past U+10FFFF (after `F4`). -/
def Pending.ofLead? (b : Nat) : Option Pending :=
  if b < 0xC2 then none
  else if b < 0xE0 then some ⟨0, 0x80, 0xBF, b - 0xC0⟩
  else if b < 0xF0 then
    some ⟨1, if b = 0xE0 then 0xA0 else 0x80, if b = 0xED then 0x9F else 0xBF, b - 0xE0⟩
  else if b < 0xF5 then
    some ⟨2, if b = 0xF0 then 0x90 else 0x80, if b = 0xF4 then 0x8F else 0xBF, b - 0xF0⟩
  else none

/-- Where reading stands between two bytes. -/
structure State where
  /-- The text read so far. -/
  text : String
  /-- The character that has been begun, if one has. -/
  pending : Option Pending

/-- The mark that stands for bytes that are no character. -/
def replacement : Char := '\uFFFD'

/-- Reads a byte that begins a character. -/
def State.start (text : String) (b : Nat) : State :=
  if b < 0x80 then ⟨text.push (Char.ofNat b), none⟩
  else match Pending.ofLead? b with
    | some p => ⟨text, some p⟩
    | none => ⟨text.push replacement, none⟩

/-- Reads a byte.  A byte that does not continue the pending character ends it as an
ill-formed part and begins anew. -/
def State.step (s : State) (byte : UInt8) : State :=
  let b := byte.toNat
  match s.pending with
  | none => .start s.text b
  | some p =>
    if p.low ≤ b ∧ b ≤ p.high then
      let value := p.value * 64 + b % 64
      match p.more with
      | 0 => ⟨s.text.push (Char.ofNat value), none⟩
      | more + 1 => ⟨s.text, some ⟨more, 0x80, 0xBF, value⟩⟩
    else .start (s.text.push replacement) b

/-- The text when the bytes end: a pending character is an ill-formed part too. -/
def State.finish (s : State) : String :=
  match s.pending with
  | none => s.text
  | some _ => s.text.push replacement

/-- The text that the bytes stand for. -/
def decode (bytes : List UInt8) : String := (bytes.foldl State.step ⟨"", none⟩).finish

/-- The bytes of a text. -/
def encode (text : String) : List UInt8 := text.toList.flatMap String.utf8EncodeChar

/-! ## Well-formed text is read back unchanged -/

theorem toNat_ofNat_of_lt {n : Nat} (h : n < 256) : (UInt8.ofNat n).toNat = n :=
  UInt8.toNat_ofNat_of_lt' h

theorem step_lead {text : String} {n : Nat} {p : Pending} (hn : n < 256)
    (hp : Pending.ofLead? n = some p) :
    State.step ⟨text, none⟩ (UInt8.ofNat n) = ⟨text, some p⟩ := by
  have h : ¬ n < 0x80 := by
    intro h
    simp [Pending.ofLead?, show n < 0xC2 by omega] at hp
  simp [State.step, State.start, toNat_ofNat_of_lt hn, h, hp]

theorem step_last {text : String} {low high value n : Nat} (hn : n < 256)
    (hlow : low ≤ n) (hhigh : n ≤ high) :
    State.step ⟨text, some ⟨0, low, high, value⟩⟩ (UInt8.ofNat n) =
      ⟨text.push (Char.ofNat (value * 64 + n % 64)), none⟩ := by
  simp [State.step, toNat_ofNat_of_lt hn, hlow, hhigh]

theorem step_more {text : String} {more low high value n : Nat} (hn : n < 256)
    (hlow : low ≤ n) (hhigh : n ≤ high) :
    State.step ⟨text, some ⟨more + 1, low, high, value⟩⟩ (UInt8.ofNat n) =
      ⟨text, some ⟨more, 0x80, 0xBF, value * 64 + n % 64⟩⟩ := by
  simp [State.step, toNat_ofNat_of_lt hn, hlow, hhigh]

/-- Between characters the automaton reads the bytes of one character as that character. -/
theorem foldl_utf8EncodeChar (text : String) (c : Char) :
    (String.utf8EncodeChar c).foldl State.step ⟨text, none⟩ = ⟨text.push c, none⟩ := by
  have hv : c.toNat < 0xD800 ∨ 0xDFFF < c.toNat ∧ c.toNat < 0x110000 := c.valid
  have hc : ∀ n, n = c.toNat → Char.ofNat n = c := fun n h => by simp [h]
  have hn : c.val.toNat = c.toNat := rfl
  unfold String.utf8EncodeChar
  simp only [hn]
  generalize c.toNat = v at hv hc
  split
  · simp [State.step, State.start, Nat.mod_eq_of_lt (show v < 256 by omega),
      show v < 128 by omega, hc v rfl]
  split
  · have hp : Pending.ofLead? (v / 64 % 0x20 + 0xC0) = some ⟨0, 0x80, 0xBF, v / 64⟩ := by
      grind [Pending.ofLead?]
    simp only [List.foldl_cons, List.foldl_nil]
    rw [step_lead (by omega) hp, step_last (by omega) (by omega) (by omega), hc _ (by omega)]
  split
  · have hp : Pending.ofLead? (v / 4096 % 0x10 + 0xE0) =
        some ⟨1, if v / 4096 = 0 then 0xA0 else 0x80, if v / 4096 = 13 then 0x9F else 0xBF,
          v / 4096⟩ := by
      grind [Pending.ofLead?]
    simp only [List.foldl_cons, List.foldl_nil]
    rw [step_lead (by omega) hp, step_more (by omega) (by grind) (by grind),
      step_last (by omega) (by omega) (by omega), hc _ (by omega)]
  · have hp : Pending.ofLead? (v / 262144 % 0x08 + 0xF0) =
        some ⟨2, if v / 262144 = 0 then 0x90 else 0x80, if v / 262144 = 4 then 0x8F else 0xBF,
          v / 262144⟩ := by
      grind [Pending.ofLead?]
    simp only [List.foldl_cons, List.foldl_nil]
    rw [step_lead (by omega) hp, step_more (by omega) (by grind) (by grind),
      step_more (by omega) (by omega) (by omega), step_last (by omega) (by omega) (by omega),
      hc _ (by omega)]

theorem foldl_flatMap_utf8EncodeChar (text : String) (cs : List Char) :
    (cs.flatMap String.utf8EncodeChar).foldl State.step ⟨text, none⟩ =
      ⟨text ++ String.ofList cs, none⟩ := by
  induction cs generalizing text with
  | nil => simp
  | cons c cs ih =>
    rw [List.flatMap_cons, List.foldl_append, foldl_utf8EncodeChar, ih]
    congr 1
    apply String.toList_injective
    simp

/-- Well-formed text is read back unchanged. -/
theorem decode_encode (text : String) : decode (encode text) = text := by
  rw [decode, encode, foldl_flatMap_utf8EncodeChar]
  apply String.toList_injective
  simp [State.finish]

example : decode [0x61, 0xE2, 0x82, 0xAC] = "a€" := by decide +kernel
example : decode [0xF0, 0x9F, 0x98, 0x41] = "\uFFFDA" := by decide +kernel
example : decode [0xED, 0xA0, 0x80] = "\uFFFD\uFFFD\uFFFD" := by decide +kernel

end ObjectFile.Utf8
