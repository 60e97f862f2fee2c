import ObjectFile.Proofs.Rejection
/-!
# Numbers that do not fit

Ten groups of seven bits have room for seventy bits, of which a word holds sixty-four.  What is
rejected as too long is a number that goes on after ten groups.  A number of ten groups or fewer
is never rejected, and if its last group, the tenth, has more than its lowest bit, what that has
above it is lost without a word: the number that is read is what the groups denote modulo 2⁶⁴
(`Parser.uvarint_ofBytes`, `Parser.uvarint_ofBytes_spill`).

When this happens is a matter of the tenth byte alone (`Grammar.Groups.base128_lt_iff`).
-/

namespace ObjectFile

namespace Grammar

theorem base128_append (u v : List UInt8) :
    base128 (u ++ v) = base128 u + 128 ^ u.length * base128 v := by
  induction u with
  | nil => simp [base128]
  | cons b u ih =>
    rw [List.cons_append, base128, base128, ih, List.length_cons, Nat.pow_succ',
      Nat.mul_add, ← Nat.mul_assoc, Nat.add_assoc]

theorem base128_lt (w : List UInt8) : base128 w < 128 ^ w.length := by
  induction w with
  | nil => decide
  | cons b w ih =>
    rw [base128, List.length_cons, Nat.pow_succ']
    have hb : b.toNat % 128 < 128 := Nat.mod_lt _ (by decide)
    omega

/-- Ten groups or fewer denote a number of sixty-four bits just if the tenth one, if there are
so many, is 0 or 1. -/
theorem Groups.base128_lt_iff {w : List UInt8} (h : Groups 10 w) :
    base128 w < 2 ^ 64 ↔ ∀ b ∈ w[9]?, b < 2 := by
  obtain ⟨front, last, rfl, hlen, -, hlast⟩ := h
  have hsmall : last.toNat < 128 := UInt8.lt_iff_toNat_lt.1 hlast
  have hfront := base128_lt front
  have hvalue : base128 (front ++ [last]) = base128 front + 128 ^ front.length * last.toNat := by
    rw [base128_append, base128, base128, Nat.mul_zero, Nat.add_zero, Nat.mod_eq_of_lt hsmall]
  by_cases htenth : front.length = 9
  · have hget : (front ++ [last])[9]? = some last := by
      rw [← htenth, List.getElem?_concat_length]
    rw [htenth] at hfront hvalue
    simp only [hget, hvalue, Option.mem_def, Option.some.injEq, forall_eq',
      UInt8.lt_iff_toNat_lt, UInt8.reduceToNat]
    omega
  · -- up to nine groups have room for sixty-three bits
    have hnone : (front ++ [last])[9]? = none := by
      rw [List.getElem?_eq_none_iff, List.length_append, List.length_singleton]
      omega
    have hbound : base128 (front ++ [last]) < 2 ^ 64 :=
      calc base128 (front ++ [last]) < 128 ^ (front ++ [last]).length := base128_lt _
        _ ≤ 128 ^ 9 := by
          refine Nat.pow_le_pow_right (by decide) ?_
          rw [List.length_append, List.length_singleton]
          omega
        _ < 2 ^ 64 := by decide
    rw [hnone]
    exact iff_of_true hbound (by simp)

end Grammar

namespace Parser

open Grammar (base128 Groups)

/-- What comes of reading an unsigned number.  The word that is read is what the bytes taken
denote, as far as sixty-four bits hold it; nothing is lost just if the tenth byte, if one was
taken, is 0 or 1.  Ten groups or fewer are always read, whatever follows them.  The number is
rejected as too long just if ten bytes in a row say that another one follows. -/
theorem uvarint_ofBytes (s : List UInt8) :
    (∀ word j, uvarint.run (.ofBytes s) = (.ok word, j) →
      word.toNat = base128 (s.take j.consumed) % 2 ^ 64 ∧
        (word.toNat = base128 (s.take j.consumed) ↔ ∀ b ∈ (s.take j.consumed)[9]?, b < 2)) ∧
    (∀ w r, s = w ++ r → Groups 10 w →
      (uvarint.run (.ofBytes s)).1 = .ok (.ofNat (base128 w)) ∧
        (uvarint.run (.ofBytes s)).2.consumed = w.length) ∧
    ((uvarint.run (.ofBytes s)).1 = .error .longNumber ↔
      10 ≤ s.length ∧ ∀ b ∈ s.take 10, 0x80 ≤ b) := by
  refine ⟨fun word j hrun => ?_, fun w r hs hgroups => ?_, fun herror => ?_, ?_⟩
  · obtain ⟨w, hw, haccepts⟩ := accepts_of_run hrun
    obtain ⟨hgroups, hword⟩ := accepts_uvarint.1 haccepts
    obtain ⟨r, rfl⟩ : ∃ r, s = w ++ r := by
      have hbytes := congrArg Signal.bytes hw
      rw [Input.signals_ofBytes, Signal.bytes_append, Signal.bytes_map_byte,
        Signal.bytes_map_byte] at hbytes
      exact ⟨_, hbytes⟩
    have hconsumed := (haccepts.run_ofBytes r).2
    rw [hrun] at hconsumed
    rw [hconsumed, List.take_left, ← hgroups.base128_lt_iff, hword]
    exact ⟨rfl, Nat.mod_eq_iff_lt (by decide)⟩
  · rw [hs]
    have haccepts : uvarint.Accepts w (.ofNat (base128 w)) :=
      accepts_uvarint.2 ⟨hgroups, UInt64.toNat_ofNat'⟩
    exact haccepts.run_ofBytes r
  · obtain ⟨_, rfl, hs⟩ | ⟨w, r, out, rfl, hw⟩ := Steady.online (p := uvarint) s
    · rw [hs.run_ofBytes.1] at herror
      cases herror
    · rw [(hw.run_ofBytes r).1] at herror
      subst herror
      obtain ⟨-, hlen, hhigh⟩ := decides_uvarint_error.1 hw
      rw [← hlen, List.take_left]
      exact ⟨by simp, hhigh⟩
  · rintro ⟨hlen, hhigh⟩
    have hw : uvarint.Decides (s.take 10) (.error .longNumber) :=
      decides_uvarint_error.2 ⟨rfl, by simp [hlen], hhigh⟩
    have hrun := (hw.run_ofBytes (s.drop 10)).1
    rwa [List.take_append_drop] at hrun

/-- The greatest word, in ten bytes of which the last one is 1. -/
theorem uvarint_ofBytes_greatest :
    let s : List UInt8 := List.replicate 9 0xFF ++ [1, 0xAA]
    uvarint.run (.ofBytes s) = (.ok 0xFFFFFFFFFFFFFFFF, ⟨[.data [0xAA]], 10⟩) ∧
      (0xFFFFFFFFFFFFFFFF : UInt64).toNat = base128 (s.take 10) := by
  intro s
  have hrun : uvarint.run (.ofBytes s) = (.ok 0xFFFFFFFFFFFFFFFF, ⟨[.data [0xAA]], 10⟩) := by
    decide +kernel
  exact ⟨hrun, ((uvarint_ofBytes s).1 _ _ hrun).2.2 (by decide +kernel)⟩

/-- Ten bytes that denote 2⁶⁴ are read as zero. -/
theorem uvarint_ofBytes_spill :
    let s : List UInt8 := List.replicate 9 0x80 ++ [2]
    base128 s = 2 ^ 64 ∧ uvarint.run (.ofBytes s) = (.ok 0, ⟨[], 10⟩) := by
  decide +kernel

end Parser

end ObjectFile
