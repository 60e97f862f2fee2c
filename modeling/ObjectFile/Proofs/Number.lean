import ObjectFile.Proofs.Loop
/-!
# Numbers and text

Reading a number accepts exactly the words of the number: groups of seven bits, the lowest
first, of which at most ten are taken and the sixty-four lowest bits count.

The reader gathers the groups in a word of sixty-four bits.  As long as the groups so far
fill just the bits below the next group, putting the next one beside them is adding it
(`toNat_addGroup`); this is the invariant of `Parser.accepts_uvarintFrom`.
-/

namespace ObjectFile

open Grammar (base128 zigzag Groups Number InOrder Sequence Counted Text)

/-! ## Signed numbers as unsigned ones -/

namespace Zigzag

theorem toBitVec_decode (u : UInt64) :
    (decode u).toBitVec = (u.toBitVec >>> 1) ^^^ -(u.toBitVec &&& 1#64) := by
  simp [decode]

theorem toBitVec_encode (v : Int64) :
    (encode v).toBitVec = (v.toBitVec <<< 1) ^^^ v.toBitVec.sshiftRight 63 := by
  simp [encode]

/-- An even word stands for its half, an odd one for the complement of its half. -/
theorem toInt_decode (u : UInt64) : (decode u).toInt = zigzag u.toNat := by
  rw [← Int64.toInt_toBitVec, toBitVec_decode, ← UInt64.toNat_toBitVec, zigzag]
  generalize u.toBitVec = x
  have hx := x.isLt
  have hbit : (x &&& 1#64).toNat = x.toNat % 2 := by
    rw [BitVec.toNat_and]
    exact Nat.and_one_is_mod _
  have hhalf : (x >>> 1).toNat = x.toNat / 2 := by
    rw [BitVec.toNat_ushiftRight, Nat.shiftRight_eq_div_pow, Nat.pow_one]
  by_cases h : x.toNat % 2 = 0
  · have h0 : x &&& 1#64 = 0#64 := BitVec.eq_of_toNat_eq (by rw [hbit, h]; rfl)
    rw [if_pos h, h0, BitVec.neg_zero, BitVec.xor_zero,
      BitVec.toInt_eq_toNat_of_lt (by omega), hhalf]
  · have h1 : x &&& 1#64 = 1#64 := BitVec.eq_of_toNat_eq (by rw [hbit]; simp; omega)
    rw [if_neg h, h1, BitVec.neg_one_eq_allOnes, BitVec.xor_allOnes, BitVec.toInt_not, hhalf,
      Int.bmod_def]
    split <;> omega

/-- A number becomes twice its magnitude, less one if it is negative. -/
theorem toNat_encode (v : Int64) :
    ((encode v).toNat : Int) = if 0 ≤ v.toInt then 2 * v.toInt else -2 * v.toInt - 1 := by
  rw [← UInt64.toNat_toBitVec, toBitVec_encode, ← Int64.toInt_toBitVec]
  generalize v.toBitVec = x
  have hx := x.isLt
  rw [BitVec.toInt_eq_msb_cond]
  cases hm : x.msb with
  | false =>
    have hsmall := BitVec.msb_eq_false_iff_two_mul_lt.1 hm
    have hsign : x.sshiftRight 63 = 0#64 := by
      rw [BitVec.sshiftRight_eq_of_msb_false hm]
      apply BitVec.eq_of_toNat_eq
      rw [BitVec.toNat_ushiftRight, Nat.shiftRight_eq_div_pow]
      simp
      omega
    rw [hsign, BitVec.xor_zero, BitVec.toNat_shiftLeft, Nat.shiftLeft_eq]
    simp
    omega
  | true =>
    have hlarge := BitVec.msb_eq_true_iff_two_mul_ge.1 hm
    have hsign : x.sshiftRight 63 = BitVec.allOnes 64 := by
      rw [BitVec.sshiftRight_eq_of_msb_true hm]
      apply BitVec.eq_of_toNat_eq
      rw [BitVec.toNat_not, BitVec.toNat_ushiftRight, BitVec.toNat_not,
        Nat.shiftRight_eq_div_pow]
      simp
      omega
    rw [hsign, BitVec.xor_allOnes, BitVec.toNat_not, BitVec.toNat_shiftLeft, Nat.shiftLeft_eq]
    simp
    omega

theorem zigzag_toNat_encode (v : Int64) : zigzag (encode v).toNat = v.toInt := by
  have h := toNat_encode v
  rw [zigzag]
  split at h <;> split <;> omega

end Zigzag

/-! ## Groups of seven bits -/

theorem not_groups_zero {w : List UInt8} : ¬ Groups 0 w := by
  rintro ⟨front, last, -, hlen, -⟩
  omega

theorem not_groups_nil {most : Nat} : ¬ Groups most [] := by
  rintro ⟨front, last, h, -⟩
  simp at h

/-- The first group is the only one or has its high bit set. -/
theorem groups_cons {most : Nat} {b : UInt8} {w : List UInt8} :
    Groups (most + 1) (b :: w) ↔ b < 0x80 ∧ w = [] ∨ 0x80 ≤ b ∧ Groups most w := by
  constructor
  · rintro ⟨front, last, h, hlen, hfront, hlast⟩
    cases front with
    | nil =>
      obtain ⟨rfl, rfl⟩ := List.cons.inj h
      exact .inl ⟨hlast, rfl⟩
    | cons c front =>
      obtain ⟨rfl, rfl⟩ := List.cons.inj h
      exact .inr ⟨hfront b (by simp), front, last, rfl, by simpa using hlen,
        fun c hc => hfront c (by simp [hc]), hlast⟩
  · rintro (⟨hb, rfl⟩ | ⟨hb, front, last, rfl, hlen, hfront, hlast⟩)
    · exact ⟨[], b, rfl, by simp, by simp, hb⟩
    · exact ⟨b :: front, last, rfl, by simpa using hlen, by simpa [hb] using hfront, hlast⟩

theorem length_le_of_groups {most : Nat} {w : List UInt8} (h : Groups most w) :
    w.length ≤ most := by
  obtain ⟨front, last, rfl, hlen, -⟩ := h
  rw [List.length_append, List.length_singleton]
  exact hlen

/-- Groups come first just if one of the bytes that may belong to them has no high bit. -/
theorem exists_groups_iff {most : Nat} {s : List UInt8} :
    (∃ b ∈ s.take most, b < 0x80) ↔ ∃ w r, s = w ++ r ∧ Groups most w := by
  constructor
  · intro h
    induction most generalizing s with
    | zero => simp at h
    | succ most ih =>
      cases s with
      | nil => simp at h
      | cons b s =>
        by_cases hb : b < 0x80
        · exact ⟨[b], s, rfl, groups_cons.2 (.inl ⟨hb, rfl⟩)⟩
        · have hlater : ∃ c ∈ s.take most, c < 0x80 := by simpa [hb] using h
          obtain ⟨w, r, rfl, hw⟩ := ih hlater
          exact ⟨b :: w, r, rfl, groups_cons.2 (.inr ⟨UInt8.not_lt.1 hb, hw⟩)⟩
  · rintro ⟨w, r, rfl, hw⟩
    have htake : w <+: (w ++ r).take most :=
      List.prefix_take_iff.2 ⟨List.prefix_append w r, length_le_of_groups hw⟩
    obtain ⟨front, last, rfl, -, -, hlast⟩ := hw
    exact ⟨last, htake.subset (by simp), hlast⟩

/-- Putting a group above bits that end below it is adding it, as far as sixty-four bits
hold it. -/
theorem toNat_addGroup {value : UInt64} {b : UInt8} {shift : Nat} (hshift : shift < 64)
    (hvalue : value.toNat < 2 ^ shift) :
    (value ||| ((b &&& 0x7F).toUInt64 <<< shift.toUInt64)).toNat =
      (value.toNat + 2 ^ shift * (b.toNat % 128)) % 2 ^ 64 := by
  have hb : (b &&& 0x7F).toUInt64.toNat = b.toNat % 128 := by
    rw [UInt8.toNat_toUInt64, UInt8.toNat_and]
    exact Nat.and_two_pow_sub_one_eq_mod b.toNat 7
  have hs : shift.toUInt64.toNat % 64 = shift := by
    rw [UInt64.toNat_ofNat', Nat.mod_mod_of_dvd _ (by decide : 64 ∣ 2 ^ 64)]
    exact Nat.mod_eq_of_lt hshift
  rw [UInt64.toNat_or, UInt64.toNat_shiftLeft, hb, hs, Nat.shiftLeft_eq]
  -- what is left of the group in the word begins at the same bit
  have hpow : (2 : Nat) ^ 64 = 2 ^ (64 - shift) * 2 ^ shift := by
    rw [← Nat.pow_add]
    congr 1
    omega
  generalize b.toNat % 128 = x
  have hgroup : x * 2 ^ shift % 2 ^ 64 = x % 2 ^ (64 - shift) * 2 ^ shift := by
    rw [hpow, Nat.mul_mod_mul_right]
  have hroom : x % 2 ^ (64 - shift) * 2 ^ shift + value.toNat < 2 ^ 64 := by
    have hlt : x % 2 ^ (64 - shift) < 2 ^ (64 - shift) := Nat.mod_lt _ (Nat.two_pow_pos _)
    calc x % 2 ^ (64 - shift) * 2 ^ shift + value.toNat
        < (x % 2 ^ (64 - shift) + 1) * 2 ^ shift := by rw [Nat.add_mul]; omega
      _ ≤ 2 ^ (64 - shift) * 2 ^ shift := Nat.mul_le_mul_right _ hlt
      _ = 2 ^ 64 := hpow.symm
  calc value.toNat ||| x * 2 ^ shift % 2 ^ 64
      = x % 2 ^ (64 - shift) * 2 ^ shift + value.toNat := by
        rw [hgroup, Nat.or_comm, ← Nat.shiftLeft_eq, Nat.shiftLeft_add_eq_or_of_lt hvalue]
    _ = (value.toNat + x * 2 ^ shift % 2 ^ 64) % 2 ^ 64 := by
        rw [hgroup, Nat.add_comm value.toNat, Nat.mod_eq_of_lt hroom]
    _ = (value.toNat + 2 ^ shift * x) % 2 ^ 64 := by
        rw [Nat.add_mod_mod, Nat.mul_comm x]

/-- Behind the group there is room for the next one. -/
theorem toNat_addGroup_lt {value : UInt64} {b : UInt8} {shift : Nat} (hshift : shift < 64)
    (hvalue : value.toNat < 2 ^ shift) :
    (value ||| ((b &&& 0x7F).toUInt64 <<< shift.toUInt64)).toNat < 2 ^ (shift + 7) := by
  rw [toNat_addGroup hshift hvalue]
  refine Nat.lt_of_le_of_lt (Nat.mod_le _ _) ?_
  have hb : b.toNat % 128 + 1 ≤ 128 := Nat.mod_lt _ (by omega)
  have hgroup := Nat.mul_le_mul_left (2 ^ shift) hb
  rw [Nat.mul_add, Nat.mul_one] at hgroup
  rw [Nat.pow_add]
  omega

/-- What the groups from a bit on denote, the first one taken by itself. -/
theorem add_mul_base128_cons (value shift : Nat) (b : UInt8) (w : List UInt8) :
    value + 2 ^ shift * (b.toNat % 128) + 2 ^ (shift + 7) * base128 w =
      value + 2 ^ shift * base128 (b :: w) := by
  rw [base128, Nat.mul_add, Nat.pow_add, Nat.mul_assoc, Nat.add_assoc]

namespace Parser

instance (groups shift : Nat) (value : UInt64) : (uvarintFrom groups shift value).Steady := by
  induction groups generalizing shift value with
  | zero => exact inferInstanceAs (fail .longNumber : Parser UInt64).Steady
  | succ groups ih =>
    simp only [uvarintFrom]
    infer_instance

/-- What is accepted from the group at `shift` on, where `value` fills the bits below it. -/
theorem accepts_uvarintFrom {groups shift : Nat} {value word : UInt64} {w : List UInt8}
    (hshift : shift + 7 * groups ≤ 70) (hvalue : value.toNat < 2 ^ shift) :
    (uvarintFrom groups shift value).Accepts w word ↔
      Groups groups w ∧ word.toNat = (value.toNat + 2 ^ shift * base128 w) % 2 ^ 64 := by
  induction groups generalizing shift value w with
  | zero =>
    constructor
    · intro h
      exact absurd h accepts_fail
    · rintro ⟨h, -⟩
      exact absurd h not_groups_zero
  | succ groups ih =>
    simp only [uvarintFrom, accepts_bind, accepts_byte]
    have hadd (b : UInt8) := toNat_addGroup (b := b) (by omega) hvalue
    have hroom (b : UInt8) := toNat_addGroup_lt (b := b) (by omega) hvalue
    -- a byte without the high bit ends the number; another one leaves the rest of the groups
    constructor
    · rintro ⟨_, v, b, rfl, rfl, h⟩
      rw [List.singleton_append, groups_cons]
      split at h
      · rename_i hb
        obtain ⟨rfl, rfl⟩ := accepts_pure.1 h
        exact ⟨.inl ⟨hb, rfl⟩, by simpa [base128] using hadd b⟩
      · rename_i hb
        obtain ⟨hv, hword⟩ := (ih (by omega) (hroom b)).1 h
        refine ⟨.inr ⟨UInt8.not_lt.1 hb, hv⟩, ?_⟩
        rw [hword, hadd, Nat.mod_add_mod, add_mul_base128_cons]
    · rintro ⟨hw, hword⟩
      cases w with
      | nil => exact absurd hw not_groups_nil
      | cons b v =>
        refine ⟨[b], v, b, rfl, rfl, ?_⟩
        obtain ⟨hb, rfl⟩ | ⟨hb, hv⟩ := groups_cons.1 hw
        · rw [if_pos hb, accepts_pure]
          refine ⟨rfl, UInt64.toNat_inj.1 ?_⟩
          rw [hword, hadd]
          simp [base128]
        · rw [if_neg (UInt8.not_lt.2 hb), ih (by omega) (hroom b)]
          exact ⟨hv, by rw [hword, hadd, Nat.mod_add_mod, add_mul_base128_cons]⟩

instance : uvarint.Steady := inferInstanceAs (uvarintFrom 10 0 0).Steady

/-- An unsigned number has at most ten groups, of which the sixty-four lowest bits count. -/
theorem accepts_uvarint {w : List UInt8} {word : UInt64} :
    uvarint.Accepts w word ↔ Groups 10 w ∧ word.toNat = base128 w % 2 ^ 64 := by
  have h : (uvarintFrom 10 0 0).Accepts w word ↔
      Groups 10 w ∧ word.toNat = ((0 : UInt64).toNat + 2 ^ 0 * base128 w) % 2 ^ 64 :=
    accepts_uvarintFrom (by omega) (by decide)
  simpa [uvarint] using h

instance : varint.Steady := inferInstanceAs (uvarint >>= fun word => pure (Zigzag.decode word)).Steady

theorem accepts_varint : varint.Accepts = Number := by
  ext w n
  simp only [varint, accepts_bind, accepts_uvarint, accepts_pure]
  constructor
  · rintro ⟨u, _, word, rfl, ⟨hu, hword⟩, rfl, rfl⟩
    rw [List.append_nil]
    exact ⟨hu, by rw [Zigzag.toInt_decode, hword]⟩
  · rintro ⟨hw, hn⟩
    refine ⟨w, [], .ofNat (base128 w), by simp, ⟨hw, UInt64.toNat_ofNat'⟩, rfl, ?_⟩
    rw [← Int64.toInt_inj, hn, Zigzag.toInt_decode, UInt64.toNat_ofNat']

instance (what : String) : (length what).Steady := by
  unfold length
  infer_instance

theorem accepts_length {what : String} : (length what).Accepts = Grammar.Length := by
  ext w size
  simp only [length, accepts_bind, accepts_varint]
  constructor
  · rintro ⟨u, v, n, rfl, hu, h⟩
    split at h
    · exact absurd h accepts_fail
    · rename_i hn
      obtain ⟨rfl, rfl⟩ := accepts_pure.1 h
      rw [Int64.lt_iff_toInt_lt] at hn
      refine ⟨n, ?_, by simpa using hu⟩
      have : (0 : Int64).toInt = 0 := rfl
      omega
  · rintro ⟨n, hn, hw⟩
    refine ⟨w, [], n, by simp, hw, ?_⟩
    have hpos : ¬ n < 0 := by
      rw [Int64.lt_iff_toInt_lt, hn]
      simp
    rw [if_neg hpos, accepts_pure, hn]
    exact ⟨rfl, rfl⟩

instance : text.Steady := by
  unfold text
  infer_instance

theorem accepts_text : text.Accepts = Text := by
  ext w t
  simp only [text, accepts_bind, accepts_length, block_eq_take, accepts_take, accepts_pure]
  constructor
  · rintro ⟨u, _, size, rfl, hu, _, _, bytes, rfl, ⟨rfl, rfl⟩, rfl, rfl⟩
    exact ⟨bytes, rfl, u, _, rfl, hu, bytes, [], rfl, rfl, rfl⟩
  · rintro ⟨_, rfl, u, _, rfl, hu, v, _, rfl, rfl, rfl⟩
    exact ⟨u, _, _, rfl, hu, v, [], v, rfl, ⟨rfl, rfl⟩, rfl, rfl⟩

end Parser

end ObjectFile
