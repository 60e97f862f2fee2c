import ObjectFile.Proofs.Tiling
/-!
# The bytes of one block

A symbol's block is whatever the file or a caller declares, with any size and any offset of 64
bits, and the bytes of the block are asked for all the same.  They are given just when all of
them are there (`Object.bytes?_exact`), where sizes and offsets count as the numbers that they
are, so that no sum of theirs wraps around.

A machine that adds words of 64 bits comes to the same (`Block.range?_eq_words?`): a size or an
offset that is not negative leaves the highest bit of its word free, so there is always room for
the sum of two of them.
-/

namespace ObjectFile

/-- The sum of two words, unless it is too big for a word. -/
def sum? (m n : UInt64) : Option UInt64 :=
  if m.toNat + n.toNat < 2 ^ 64 then some (m + n) else none

/-- The word of a number that is not negative is that number, and its highest bit is free. -/
theorem toNat_toUInt64 {n : Int64} (h : 0 ≤ n) :
    n.toUInt64.toNat = n.toInt.toNat ∧ n.toUInt64.toNat < 2 ^ 63 := by
  rw [Int64.le_iff_toInt_le, Int64.toInt_zero] at h
  have hword : n.toUInt64.toNat < 2 ^ 64 := n.toUInt64.toNat_lt
  have hvalue : n.toInt = if 2 * n.toUInt64.toNat < 2 ^ 64 then (n.toUInt64.toNat : Int)
      else (n.toUInt64.toNat : Int) - (2 ^ 64 : Nat) :=
    BitVec.toInt_eq_toNat_cond n.toBitVec
  split at hvalue <;> omega

namespace Block

/-- Where a block begins and where it stops, unless its size or its offset is negative, in words
of 64 bits. -/
def words? (b : Block) : Option (UInt64 × UInt64) :=
  if 0 ≤ b.offset ∧ 0 ≤ b.size then
    (sum? b.offset.toUInt64 b.size.toUInt64).map fun stop => (b.offset.toUInt64, stop)
  else none

/-- Where a block stops fits into a word whenever it is asked for. -/
theorem range?_eq_words? (b : Block) :
    b.range? = b.words?.map fun (first, stop) => (first.toNat, stop.toNat) := by
  rw [range?, words?]
  split
  · rename_i h
    obtain ⟨hoffset, hroomOffset⟩ := toNat_toUInt64 h.1
    obtain ⟨hsize, hroomSize⟩ := toNat_toUInt64 h.2
    have hroom : b.offset.toUInt64.toNat + b.size.toUInt64.toNat < 2 ^ 64 := by omega
    rw [sum?, if_pos hroom, Option.map_some, Option.map_some]
    dsimp only
    rw [UInt64.toNat_add, Nat.mod_eq_of_lt hroom, hoffset, hsize]
  · rfl

end Block

namespace Object

variable {o : Object} {b : Block} {first next : Nat} {bytes : List UInt8}

theorem bytes?_of_range (h : b.range? = some (first, next)) :
    o.bytes? b =
      if next ≤ o.data.length then some ((o.data.drop first).take (next - first)) else none := by
  rw [bytes?, h]

/-- The bytes of a block stand in the data at its offset and are as many as its size says. -/
theorem bytes?_eq_some_iff :
    o.bytes? b = some bytes ↔
      ∃ before after, o.data = before ++ bytes ++ after ∧
        (before.length : Int) = b.offset.toInt ∧ (bytes.length : Int) = b.size.toInt := by
  constructor
  · intro h
    cases hrange : b.range? with
    | none =>
      rw [bytes?, hrange] at h
      cases h
    | some range =>
      obtain ⟨first, next⟩ := range
      obtain ⟨hfirst, hnext, hle⟩ := Block.range?_eq_some_iff.1 hrange
      rw [bytes?_of_range hrange] at h
      split at h
      · rename_i hend
        cases h
        refine ⟨o.data.take first, (o.data.drop first).drop (next - first), ?_, ?_, ?_⟩
        · rw [List.append_assoc, List.take_append_drop, List.take_append_drop]
        · rw [List.length_take]
          omega
        · rw [List.length_take, List.length_drop]
          omega
      · cases h
  · rintro ⟨before, after, hdata, hbefore, hbytes⟩
    have hrange : b.range? = some (before.length, before.length + bytes.length) :=
      Block.range?_eq_some_iff.2 ⟨hbefore.symm, by omega, Nat.le_add_right _ _⟩
    have hend : before.length + bytes.length ≤ o.data.length := by
      simp [hdata]
    rw [bytes?_of_range hrange, if_pos hend, hdata, List.append_assoc, List.drop_left,
      Nat.add_sub_cancel_left, List.take_left]

/-- A block has bytes in the data just if neither its size nor its offset is negative and it
does not reach beyond the end. -/
theorem exists_bytes?_iff :
    (∃ bytes, o.bytes? b = some bytes) ↔
      0 ≤ b.size.toInt ∧ 0 ≤ b.offset.toInt ∧
        b.offset.toInt + b.size.toInt ≤ o.data.length := by
  constructor
  · rintro ⟨bytes, h⟩
    obtain ⟨before, after, hdata, hbefore, hbytes⟩ := bytes?_eq_some_iff.1 h
    rw [hdata, List.length_append, List.length_append]
    omega
  · rintro ⟨hsize, hoffset, hend⟩
    have hrange : b.range? =
        some (b.offset.toInt.toNat, b.offset.toInt.toNat + b.size.toInt.toNat) :=
      Block.range?_eq_some_iff.2 (by omega)
    exact ⟨_, (bytes?_of_range hrange).trans (if_pos (by omega))⟩

/-- The bytes of a symbol's block are given just if neither its size nor its offset is negative
and the two together, as numbers, are at most as much as there is data; then given are the bytes
of the data from the offset on, as many as the size says.  Where the block stops is what words of
64 bits have it, as their sum never wraps around.

A block of no bytes has its bytes, which are none, anywhere in the data and right behind them, and
beyond that it has not. -/
theorem bytes?_exact (o : Object) (s : Symbol) :
    ((∃ bytes, o.bytes? s.block = some bytes) ↔
      0 ≤ s.block.size.toInt ∧ 0 ≤ s.block.offset.toInt ∧
        s.block.offset.toInt + s.block.size.toInt ≤ o.data.length) ∧
    (∀ bytes, o.bytes? s.block = some bytes ↔
      ∃ before after, o.data = before ++ bytes ++ after ∧
        (before.length : Int) = s.block.offset.toInt ∧
        (bytes.length : Int) = s.block.size.toInt) ∧
    s.block.range? = s.block.words?.map (fun (first, stop) => (first.toNat, stop.toNat)) ∧
    ∀ offset : Int64,
      (o.bytes? ⟨0, offset⟩ = some [] ↔ 0 ≤ offset.toInt ∧ offset.toInt ≤ o.data.length) ∧
      (o.bytes? ⟨0, offset⟩ = none ↔ offset.toInt < 0 ∨ o.data.length < offset.toInt) := by
  refine ⟨exists_bytes?_iff, fun bytes => bytes?_eq_some_iff, Block.range?_eq_words? _,
    fun offset => ?_⟩
  have hzero : (∃ bytes, o.bytes? ⟨0, offset⟩ = some bytes) ↔
      0 ≤ offset.toInt ∧ offset.toInt ≤ o.data.length := by
    rw [exists_bytes?_iff, Int64.toInt_zero, Int.add_zero]
    simp
  constructor
  · rw [← hzero]
    refine ⟨fun h => ⟨_, h⟩, fun ⟨bytes, h⟩ => ?_⟩
    -- bytes of which there are none
    obtain ⟨-, -, -, -, hbytes⟩ := bytes?_eq_some_iff.1 h
    rw [Int64.toInt_zero, Int.natCast_eq_zero, List.length_eq_zero_iff] at hbytes
    rw [h, hbytes]
  · rw [Option.eq_none_iff_forall_ne_some, ← not_exists, hzero]
    omega

/-- The last byte, no byte behind it, and a sum that would be negative if it wrapped around. -/
example :
    let o : Object := ⟨#[], [], [1, 2, 3]⟩
    o.bytes? ⟨1, 2⟩ = some [3] ∧ o.bytes? ⟨0, 3⟩ = some [] ∧ o.bytes? ⟨0, 4⟩ = none ∧
      o.bytes? ⟨Int64.maxValue, Int64.maxValue⟩ = none := by
  decide +kernel

end Object

end ObjectFile
