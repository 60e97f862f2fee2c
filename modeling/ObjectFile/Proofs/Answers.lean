import Mathlib.Data.Nat.ModEq
import ObjectFile.Proofs.Overflow
import ObjectFile.Proofs.Requests
/-!
# What a reader answers

What parsers do with bytes says what a reader without a fault answers to a request, how many
bytes it takes for that and what it leaves, whatever the pieces are in which the bytes come and
wherever among them the reader stands (`Reader.Stands`).

Two requests are made on data that may be broken in any way, so all that can come of them is
stated here.

* The header is found just if the magic word occurs.  The first occurrence ends it, even behind
  a part of the word that breaks off (`Reader.perform_header`).
* An unsigned number is a matter of the first ten bytes.  It ends with the first of them that has
  no high bit, it is too long if there is none among ten, and otherwise the data has ended in the
  middle of it (`Reader.perform_uvarint`).
-/

namespace ObjectFile

/-! ## Places in a list -/

section FirstAt

variable {α : Type} {l s noise : List α}

/-- The list occurs in the other one at this place, and at no place before. -/
def FirstAt (l s : List α) (k : Nat) : Prop :=
  l <+: s.drop k ∧ ∀ j < k, ¬ l <+: s.drop j

/-- What occurs at a place occurs in the front part that ends with it. -/
theorem infix_take_of_prefix_drop {j : Nat} (h : l <+: s.drop j) :
    l <:+: s.take (j + l.length) := by
  have hdrop := List.prefix_iff_eq_take.1 h
  rw [List.take_drop] at hdrop
  have hsuffix := List.drop_suffix j (s.take (j + l.length))
  rw [← hdrop] at hsuffix
  exact hsuffix.isInfix

/-- An occurrence is the first one if there is none in front of its last item. -/
theorem firstAt_of_not_infix (h : ¬ l <:+: (noise ++ l).dropLast) (rest : List α) :
    FirstAt l (noise ++ l ++ rest) noise.length := by
  constructor
  · rw [List.append_assoc, List.drop_left]
    exact List.prefix_append _ _
  · intro j hj hearlier
    have htake := infix_take_of_prefix_drop hearlier
    rw [List.take_append_of_le_length (by rw [List.length_append]; omega)] at htake
    rw [List.dropLast_eq_take, List.length_append] at h
    exact h (htake.trans (List.take_prefix_take_left (by omega)).isInfix)

end FirstAt

namespace Reader

variable {α : Type} {r : Reader} {n : Nat} {w s : List UInt8} {rest : List Signal}

/-! ## Where a reader stands -/

/-- Where a reader stands: its first fault, if there was one, how many bytes it has taken and
what the device is going to say. -/
structure Stands (r : Reader) (failure : Option Fault) (consumed : Nat) (signals : List Signal) :
    Prop where
  failure_eq : r.failure = failure
  consumed_eq : r.consumed = consumed
  signals_eq : r.input.signals = signals

/-- The fault that an outcome is, if it is one. -/
def faultOf : Except Fault α → Option Fault
  | .ok _ => none
  | .error fault => some fault

@[simp] theorem faultOf_map {β : Type} (f : α → β) (out : Except Fault α) :
    faultOf (out.map f) = faultOf out := by
  cases out <;> rfl

theorem attempt_of_run {p : Parser α} {out : Except Fault α} {i : Input} (h : r.failure = none)
    (hrun : p.run r.input = (out, i)) : r.attempt p = (out, ⟨i, faultOf out⟩) := by
  simp only [attempt, h, hrun]
  cases out <;> rfl

namespace Stands

/-- A reader comes to what the parser decides on the bytes that are next. -/
theorem attempt_of_decides {p : Parser α} {out : Except Fault α}
    (hr : r.Stands none n (w.map .byte ++ rest)) (hp : p.Decides w out) :
    ∃ t, r.attempt p = (out, t) ∧ t.Stands (faultOf out) (n + w.length) rest := by
  obtain ⟨i, hrun, hsignals, hconsumed⟩ := hp.run_eq hr.signals_eq
  have hn : r.input.consumed = n := hr.consumed_eq
  rw [hn] at hconsumed
  exact ⟨_, attempt_of_run hr.failure_eq hrun, rfl, hconsumed, hsignals⟩

/-- A reader has an early end of the data behind bytes at which the parser is stopped. -/
theorem attempt_of_stops {p : Parser α} {f : Fault → Except Fault α} {out : Except Fault α}
    (hr : r.Stands none n (w.map .byte)) (hp : p.Stops w f)
    (hout : f (.truncated (n + w.length)) = out) :
    ∃ t, r.attempt p = (out, t) ∧ t.Stands (faultOf out) (n + w.length) [] := by
  obtain ⟨i, hrun, hsignals, hconsumed⟩ := hp.run_eq hr.signals_eq
  have hn : r.input.consumed = n := hr.consumed_eq
  rw [hn] at hrun hconsumed
  rw [hout] at hrun
  exact ⟨_, attempt_of_run hr.failure_eq hrun, rfl, hconsumed, hsignals⟩

end Stands

/-! ## The header -/

section Header

open Envelope

theorem Stands.perform_header_of_first {noise rest : List UInt8}
    (hr : r.Stands none n ((noise ++ opening ++ rest).map .byte))
    (hfirst : ¬ opening <:+: (noise ++ opening).dropLast) :
    ∃ t, r.perform .header = (.ok .done, t) ∧
      t.Stands none (n + (noise.length + 8)) (rest.map .byte) := by
  have haccepts := Parser.accepts_header_of_first (List.suffix_append noise opening) hfirst
  rw [List.map_append] at hr
  obtain ⟨t, ht, hstands⟩ := hr.attempt_of_decides (Parser.Decides.map haccepts _)
  rw [List.length_append] at hstands
  exact ⟨t, ht, hstands⟩

theorem Stands.perform_header_of_absent (hr : r.Stands none n (s.map .byte))
    (habsent : ¬ opening <:+: s) :
    ∃ t, r.perform .header = (.error .noHeader, t) ∧
      t.Stands (some .noHeader) (n + s.length) [] :=
  hr.attempt_of_stops ((Parser.stops_header habsent).bind_error _) rfl

/-- What comes of looking for the header in the bytes `s`.  It is found just if the magic word
occurs, and then the first occurrence has been taken and nothing behind it.  Otherwise everything
is taken, and the reader is left with the fault that there is no header.  Noise in which the word
does not occur is passed over, whatever it ends with. -/
theorem perform_header (hr : r.Stands none n (s.map .byte)) :
    ((∃ reply, (r.perform .header).1 = .ok reply) ↔ opening <:+: s) ∧
    (opening <:+: s → ∃ k t, FirstAt opening s k ∧ r.perform .header = (.ok .done, t) ∧
      t.Stands none (n + (k + 8)) ((s.drop (k + 8)).map .byte)) ∧
    (¬ opening <:+: s → ∃ t, r.perform .header = (.error .noHeader, t) ∧
      t.Stands (some .noHeader) (n + s.length) []) ∧
    ∀ noise rest, ¬ opening <:+: noise → s = noise ++ opening ++ rest →
      ∃ t, r.perform .header = (.ok .done, t) ∧
        t.Stands none (n + (noise.length + 8)) (rest.map .byte) := by
  have hfound : opening <:+: s → ∃ k t, FirstAt opening s k ∧
      r.perform .header = (.ok .done, t) ∧
      t.Stands none (n + (k + 8)) ((s.drop (k + 8)).map .byte) := by
    intro h
    obtain ⟨_, rest, rfl, ⟨noise, rfl⟩, hfirst⟩ := exists_first_infix h (by decide)
    obtain ⟨t, ht, hstands⟩ := hr.perform_header_of_first hfirst
    have hdrop : (noise ++ opening ++ rest).drop (noise.length + 8) = rest :=
      List.drop_left' List.length_append
    refine ⟨noise.length, t, firstAt_of_not_infix hfirst rest, ht, ?_⟩
    rwa [hdrop]
  refine ⟨⟨fun ⟨reply, hreply⟩ => ?_, fun h => ?_⟩, hfound, hr.perform_header_of_absent, ?_⟩
  · by_contra habsent
    obtain ⟨t, ht, -⟩ := hr.perform_header_of_absent habsent
    rw [ht] at hreply
    cases hreply
  · obtain ⟨_, t, -, ht, -⟩ := hfound h
    exact ⟨.done, by rw [ht]⟩
  · rintro noise rest hnoise rfl
    exact hr.perform_header_of_first (not_infix_dropLast hnoise)

/-- The word breaks off before its last byte, and begins again with one zero too many. -/
theorem perform_header_restart :
    let noise : List UInt8 := [0x7F, 0x00, 0x00, 0x67, 0x6F, 0x31, 0x39, 0x6C, 0x00]
    let s := noise ++ opening ++ [1, 0]
    let r := ofEvents [.data (s.take 12), .failure .interrupted "", .data (s.drop 12)]
    r.Stands none 0 (s.map .byte) ∧ ¬ opening <:+: noise ∧
      ∃ t, r.perform .header = (.ok .done, t) ∧ t.Stands none 17 [.byte 1, .byte 0] := by
  intro noise s r
  have hr : r.Stands none 0 (s.map .byte) := ⟨rfl, rfl, by decide +kernel⟩
  have hnoise : ¬ opening <:+: noise := by decide +kernel
  exact ⟨hr, hnoise, (perform_header hr).2.2.2 noise [1, 0] hnoise rfl⟩

end Header

/-! ## Unsigned numbers -/

section Uvarint

open Grammar (base128 Groups)

theorem Stands.perform_uvarint_of_decides {out : Except Fault UInt64}
    (hr : r.Stands none n (w.map .byte ++ rest)) (hw : Parser.uvarint.Decides w out) :
    ∃ t, r.perform .uvarint = (out.map .word, t) ∧
      t.Stands (faultOf out) (n + w.length) rest := by
  have h := hr.attempt_of_decides (hw.map Reply.word)
  rwa [faultOf_map] at h

theorem Stands.perform_uvarint_of_stops (hr : r.Stands none n (w.map .byte))
    (hw : Parser.uvarint.Stops w .error) :
    ∃ t, r.perform .uvarint = (.error (.truncated (n + w.length)), t) ∧
      t.Stands (some (.truncated (n + w.length))) (n + w.length) [] :=
  hr.attempt_of_stops (hw.bind_error _) rfl

/-- The first ten bytes say what is answered and how many bytes are taken. -/
theorem perform_uvarint_of_take (n : Nat) (s : List UInt8) :
    ∃ answer taken, taken ≤ 10 ∧ ∀ (u : Reader) (v : List UInt8),
      u.Stands none n (v.map .byte) → v.take 10 = s.take 10 →
      (u.perform .uvarint).1 = answer ∧ (u.perform .uvarint).2.consumed = n + taken := by
  obtain ⟨w, out, hprefix, hw⟩ | ⟨hlen, hstops⟩ := Parser.uvarint_firstTen s
  · refine ⟨out.map .word, w.length, (List.prefix_take_iff.1 hprefix).2, fun u v hu hv => ?_⟩
    rw [← hv] at hprefix
    obtain ⟨z, rfl⟩ := hprefix.trans (List.take_prefix 10 v)
    rw [List.map_append] at hu
    obtain ⟨t, ht, hstands⟩ := hu.perform_uvarint_of_decides hw
    rw [ht]
    exact ⟨rfl, hstands.consumed_eq⟩
  · refine ⟨.error (.truncated (n + s.length)), s.length, by omega, fun u v hu hv => ?_⟩
    -- the bytes end before the tenth one, so they are all the same
    obtain rfl : v = s := by
      have hlens := congrArg List.length hv
      simp only [List.length_take] at hlens
      rwa [List.take_of_length_le (by omega), List.take_of_length_le (by omega)] at hv
    obtain ⟨t, ht, hstands⟩ := hu.perform_uvarint_of_stops hstops
    rw [ht]
    exact ⟨rfl, hstands.consumed_eq⟩

/-- What comes of reading an unsigned number from the bytes `s`, whatever they are.  At most ten
bytes are taken, and the first ten say what is answered.  If one of them has no high bit, the
number ends with the first such byte, and it is what the groups up to there denote, modulo
`2 ^ 64`.  If there are ten and all have their high bit set, the number is too long, and ten bytes
have been taken.  And if the bytes end before that, they have all been taken, and the fault says
how many that makes. -/
theorem perform_uvarint (hr : r.Stands none n (s.map .byte)) :
    (∃ answer taken, taken ≤ 10 ∧ ∀ (u : Reader) (v : List UInt8),
      u.Stands none n (v.map .byte) → v.take 10 = s.take 10 →
      (u.perform .uvarint).1 = answer ∧ (u.perform .uvarint).2.consumed = n + taken) ∧
    ((∃ b ∈ s.take 10, b < 0x80) → ∃ w later word t, s = w ++ later ∧ Groups 10 w ∧
      r.perform .uvarint = (.ok (.word word), t) ∧ word.toNat ≡ base128 w [MOD 2 ^ 64] ∧
      t.Stands none (n + w.length) (later.map .byte)) ∧
    (10 ≤ s.length → (∀ b ∈ s.take 10, 0x80 ≤ b) → ∃ t,
      r.perform .uvarint = (.error .longNumber, t) ∧
      t.Stands (some .longNumber) (n + 10) ((s.drop 10).map .byte)) ∧
    (s.length < 10 → (∀ b ∈ s, 0x80 ≤ b) → ∃ t,
      r.perform .uvarint = (.error (.truncated (n + s.length)), t) ∧
      t.Stands (some (.truncated (n + s.length))) (n + s.length) []) := by
  refine ⟨perform_uvarint_of_take n s, fun hlow => ?_, fun hlen hhigh => ?_, fun hlen hhigh => ?_⟩
  · obtain ⟨w, later, rfl, hw⟩ := exists_groups_iff.1 hlow
    have haccepts : Parser.uvarint.Accepts w (.ofNat (base128 w)) :=
      Parser.accepts_uvarint.2 ⟨hw, UInt64.toNat_ofNat'⟩
    rw [List.map_append] at hr
    obtain ⟨t, ht, hstands⟩ := hr.perform_uvarint_of_decides haccepts
    refine ⟨w, later, _, t, rfl, hw, ht, ?_, hstands⟩
    rw [UInt64.toNat_ofNat']
    exact Nat.mod_modEq _ _
  · have hten : (s.take 10).length = 10 := List.length_take_of_le hlen
    rw [← List.take_append_drop 10 s, List.map_append] at hr
    have h := hr.perform_uvarint_of_decides
      (Parser.decides_uvarint_error.2 ⟨rfl, hten, hhigh⟩)
    rwa [hten] at h
  · exact hr.perform_uvarint_of_stops (Parser.stops_uvarint hlen hhigh)

/-- Behind three bytes, ten that say that another group follows; the eleventh has no high bit. -/
theorem perform_uvarint_eleventh :
    let s : List UInt8 := List.replicate 9 0xFF ++ [0x80, 0x01]
    let r : Reader := ⟨⟨[.data (s.take 4), .data (s.drop 4)], 3⟩, none⟩
    r.Stands none 3 (s.map .byte) ∧
      ∃ t, r.perform .uvarint = (.error .longNumber, t) ∧
        t.Stands (some .longNumber) 13 [.byte 0x01] := by
  intro s r
  have hr : r.Stands none 3 (s.map .byte) := ⟨rfl, rfl, by decide +kernel⟩
  exact ⟨hr, (perform_uvarint hr).2.2.1 (by decide) (by decide +kernel)⟩

end Uvarint

end Reader

end ObjectFile
