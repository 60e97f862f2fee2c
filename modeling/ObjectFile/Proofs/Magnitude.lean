import ObjectFile.Proofs.Stream
/-!
# Numbers by magnitude

Signed numbers are mapped to words one to one, and by magnitude: of two numbers the one of
smaller magnitude has the smaller word, and of a number and its negative the negative one has
(`Zigzag.encode_lt_encode_iff`).  This holds without exception, also for the least number, which
is the one of the greatest magnitude and has the greatest word.

What is written is the shorter the smaller the word is, as the groups that have room for a word
have room for every smaller one (`Varint.length_encodeWord_mono`).  So no number is written in
more bytes than one of greater magnitude.
-/

namespace ObjectFile

/-! ## Words -/

namespace Varint

variable {u v : UInt64}

theorem length_encodeWord_mono (h : u ≤ v) : (encodeWord u).length ≤ (encodeWord v).length := by
  have hroom : u.toNat < 128 ^ (encodeWord v).length :=
    calc u.toNat ≤ v.toNat := UInt64.le_iff_toNat_le.1 h
      _ = Grammar.base128 (encodeWord v) := (base128_encodeWord v).symm
      _ < 128 ^ (encodeWord v).length := Grammar.base128_lt _
  exact length_encodeWord_le (List.length_pos_iff.2 (encodeWord_ne_nil v)) hroom

end Varint

namespace Zigzag

variable {a b : Int64}

/-! ## There and back -/

theorem decode_encode (v : Int64) : decode (encode v) = v := by
  rw [← Int64.toInt_inj, toInt_decode, zigzag_toNat_encode]

-- both words stand for the same number
theorem encode_decode (u : UInt64) : encode (decode u) = u := by
  have hnumber : Grammar.zigzag (encode (decode u)).toNat = Grammar.zigzag u.toNat := by
    rw [zigzag_toNat_encode, toInt_decode]
  exact UInt64.toNat_inj.1 (Grammar.zigzag_injective hnumber)

/-! ## The order -/

/-- Words are ordered by the magnitude of the numbers, and by the sign where that is the same. -/
theorem encode_lt_encode_iff :
    encode a < encode b ↔
      a.toInt.natAbs < b.toInt.natAbs ∨ a.toInt.natAbs = b.toInt.natAbs ∧ a < b := by
  have ha := toNat_encode a
  have hb := toNat_encode b
  rw [UInt64.lt_iff_toNat_lt, Int64.lt_iff_toInt_lt]
  split at ha <;> split at hb <;> omega

/-- Words and numbers are mapped to each other one to one, the number of smaller magnitude to the
smaller word, and it is written in no more bytes than the other one.  Magnitudes are those of the
numbers as such, so that of the least number is greater than all others. -/
theorem bijective_by_magnitude :
    (∀ v, decode (encode v) = v) ∧ (∀ u, encode (decode u) = u) ∧
    ∀ a b : Int64, a.toInt.natAbs < b.toInt.natAbs →
      encode a < encode b ∧ (Varint.encode a).length ≤ (Varint.encode b).length := by
  refine ⟨decode_encode, encode_decode, fun a b h => ?_⟩
  have hlt : encode a < encode b := encode_lt_encode_iff.2 (.inl h)
  exact ⟨hlt, Varint.length_encodeWord_mono (UInt64.le_of_lt hlt)⟩

/-- The greatest number and the least one, and two numbers at the end of what one byte holds. -/
theorem bijective_by_magnitude_extremes :
    (Int64.maxValue.toInt.natAbs < Int64.minValue.toInt.natAbs ∧
      encode Int64.maxValue < encode Int64.minValue ∧
      decode (encode Int64.minValue) = Int64.minValue) ∧
    (63 : Int64).toInt.natAbs < (-65 : Int64).toInt.natAbs ∧
      (Varint.encode 63).length ≤ (Varint.encode (-65)).length := by
  obtain ⟨hdecode, -, horder⟩ := bijective_by_magnitude
  have hextremes : Int64.maxValue.toInt.natAbs < Int64.minValue.toInt.natAbs := by decide
  have hsmall : (63 : Int64).toInt.natAbs < (-65 : Int64).toInt.natAbs := by decide
  exact ⟨⟨hextremes, (horder _ _ hextremes).1, hdecode _⟩, hsmall, (horder _ _ hsmall).2⟩

/-- For a number and its negative it can be the other way round. -/
example : (Varint.encode (-64)).length = 1 ∧ (Varint.encode 64).length = 2 := by decide +kernel

end Zigzag

end ObjectFile
