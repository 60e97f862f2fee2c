import Mathlib.Algebra.Order.BigOperators.Group.List
import Mathlib.Algebra.Order.Ring.Int
import ObjectFile.Proofs.Offsets
/-!
# How blocks cover the data

The sizes of blocks are whatever the file declares, so their offsets may be anything too.
But when no size is negative and all sizes together are at most as much as there is data, no
sum of sizes wraps around, and the blocks lie in the data one behind another with nothing
between them (`Block.Tile`).  What is said then of the bytes, of disjointness and of the
positions that are covered are facts about tiles, each by induction along the blocks.
-/

namespace ObjectFile

namespace Object

/-- The blocks of all symbols, in the order in which the file declares them. -/
def blocks (o : Object) : List Block := o.symbols.flatMap Symbol.blocks

/-- The sizes of all blocks together; this sum does not wrap around. -/
def extent (o : Object) : Int := (o.blocks.map (·.size.toInt)).sum

/-- The bytes of the data segment from the offset of a block on, as many as its size says. -/
def slice (o : Object) (b : Block) : List UInt8 :=
  (o.data.drop b.offset.toInt.toNat).take b.size.toInt.toNat

end Object

namespace Block

variable {b : Block} {blocks : List Block} {first next last n : Nat}

/-- A position lies in a block. -/
def Covers (b : Block) (n : Nat) : Prop :=
  b.offset.toInt ≤ n ∧ n < b.offset.toInt + b.size.toInt

/-- Blocks that lie one behind another, from one position on and up to another. -/
inductive Tile : Nat → List Block → Nat → Prop where
  | nil (n : Nat) : Tile n [] n
  | cons {b : Block} {blocks : List Block} {first next last : Nat}
      (head : b.range? = some (first, next)) (tail : Tile next blocks last) :
      Tile first (b :: blocks) last

theorem range?_eq_some_iff :
    b.range? = some (first, next) ↔
      b.offset.toInt = first ∧ b.offset.toInt + b.size.toInt = next ∧ first ≤ next := by
  rw [range?]
  split
  · rename_i h
    obtain ⟨hoffset, hsize⟩ := h
    rw [Int64.le_iff_toInt_le, Int64.toInt_zero] at hoffset hsize
    rw [Option.some.injEq, Prod.mk.injEq]
    omega
  · rename_i h
    rw [Int64.le_iff_toInt_le, Int64.le_iff_toInt_le, Int64.toInt_zero] at h
    constructor
    · intro hnone
      cases hnone
    · intro hsome
      exact absurd (by omega) h

theorem covers_iff (h : b.range? = some (first, next)) : b.Covers n ↔ first ≤ n ∧ n < next := by
  obtain ⟨hfirst, hnext, -⟩ := range?_eq_some_iff.1 h
  rw [Covers]
  omega

/-! ## Sums that do not wrap around -/

theorem toInt_add_of_lt {x y : Int64} (hx : 0 ≤ x.toInt) (hy : 0 ≤ y.toInt)
    (h : x.toInt + y.toInt < 2 ^ 63) : (x + y).toInt = x.toInt + y.toInt := by
  rw [Int64.toInt_add]
  exact Int.bmod_eq_of_le (by omega) (by omega)

/-- Consecutive blocks are tiles as long as the sum of their sizes stays in bounds. -/
theorem tile_consecutive {start : Int64} {sizes : List Int64} (hstart : 0 ≤ start.toInt)
    (hsizes : ∀ size ∈ sizes, 0 ≤ size.toInt)
    (hsum : start.toInt + (sizes.map Int64.toInt).sum < 2 ^ 63) :
    Tile start.toInt.toNat (consecutive start sizes)
      (start.toInt + (sizes.map Int64.toInt).sum).toNat := by
  induction sizes generalizing start with
  | nil => simpa using Tile.nil _
  | cons size sizes ih =>
    rw [List.forall_mem_cons] at hsizes
    obtain ⟨hsize, hrest⟩ := hsizes
    rw [List.map_cons, List.sum_cons] at hsum ⊢
    have hnonneg : 0 ≤ (sizes.map Int64.toInt).sum :=
      List.sum_nonneg (List.forall_mem_map.2 hrest)
    have hadd := toInt_add_of_lt hstart hsize (by omega)
    have hnext : 0 ≤ (start + size).toInt := by omega
    have htail := ih hnext hrest (by omega)
    rw [hadd, Int.add_assoc] at htail
    refine .cons (range?_eq_some_iff.2 ?_) htail
    dsimp only
    omega

/-! ## Tiles -/

namespace Tile

theorem le (h : Tile first blocks last) : first ≤ last := by
  induction h with
  | nil => exact Nat.le_refl _
  | cons head _ ih =>
    have := (range?_eq_some_iff.1 head).2.2
    omega

theorem bounds_of_covers (h : Tile first blocks last) (hb : b ∈ blocks) (hn : b.Covers n) :
    first ≤ n ∧ n < last := by
  induction h with
  | nil => cases hb
  | cons head tail ih =>
    have hle := (range?_eq_some_iff.1 head).2.2
    have hlast := tail.le
    rcases List.mem_cons.1 hb with rfl | hb
    · have := (covers_iff head).1 hn
      omega
    · have := ih hb
      omega

theorem pairwise_disjoint (h : Tile first blocks last) :
    blocks.Pairwise fun b b' => ∀ n, ¬(b.Covers n ∧ b'.Covers n) := by
  induction h with
  | nil => exact .nil
  | cons head tail ih =>
    refine .cons (fun b' hb' n => ?_) ih
    rintro ⟨hn, hn'⟩
    -- the first block ends where those behind it begin
    have hfirst := (covers_iff head).1 hn
    have hrest := tail.bounds_of_covers hb' hn'
    omega

theorem exists_covers (h : Tile first blocks last) (hfirst : first ≤ n) (hlast : n < last) :
    ∃ b ∈ blocks, b.Covers n := by
  induction h with
  | nil => omega
  | @cons b blocks first next last head tail ih =>
    rcases Nat.lt_or_ge n next with hlt | hge
    · exact ⟨b, List.mem_cons_self, (covers_iff head).2 ⟨hfirst, hlt⟩⟩
    · obtain ⟨b', hb', hn⟩ := ih hge hlast
      exact ⟨b', List.mem_cons_of_mem _ hb', hn⟩

/-- Every position that tiles reach lies in one of them, and in no second one. -/
theorem existsUnique_covers (h : Tile first blocks last) (hfirst : first ≤ n) (hlast : n < last) :
    ∃! k : Fin blocks.length, blocks[k].Covers n := by
  obtain ⟨b, hb, hn⟩ := h.exists_covers hfirst hlast
  obtain ⟨k, hk, rfl⟩ := List.getElem_of_mem hb
  have hdisjoint := List.pairwise_iff_getElem.1 h.pairwise_disjoint
  refine ⟨⟨k, hk⟩, hn, ?_⟩
  rintro ⟨l, hl⟩ (hn' : blocks[l].Covers n)
  rw [Fin.mk.injEq]
  rcases Nat.lt_trichotomy l k with hlt | heq | hgt
  · exact absurd ⟨hn', hn⟩ (hdisjoint l k hl hk hlt n)
  · exact heq
  · exact absurd ⟨hn, hn'⟩ (hdisjoint k l hk hl hgt n)

variable {o : Object}

/-- The bytes of tiles one after another are the bytes between their ends. -/
theorem flatMap_slice (h : Tile first blocks last) :
    blocks.flatMap o.slice = (o.data.drop first).take (last - first) := by
  induction h with
  | nil => simp
  | @cons b blocks first next last head tail ih =>
    obtain ⟨hfirst, hnext, hle⟩ := range?_eq_some_iff.1 head
    have hlast := tail.le
    have hslice : o.slice b = (o.data.drop first).take (next - first) := by
      rw [Object.slice, hfirst, Int.toNat_natCast]
      congr 1
      omega
    have hdrop : o.data.drop next = (o.data.drop first).drop (next - first) := by
      rw [List.drop_drop]
      congr 1
      omega
    rw [List.flatMap_cons, ih, hslice, hdrop, ← List.take_add]
    congr 1
    omega

/-- Tiles that end in the data have all their bytes there. -/
theorem bytes?_eq_slice (h : Tile first blocks last) (hlast : last ≤ o.data.length)
    (hb : b ∈ blocks) : o.bytes? b = some (o.slice b) := by
  induction h with
  | nil => cases hb
  | @cons b' blocks first next last head tail ih =>
    rcases List.mem_cons.1 hb with rfl | hb
    · obtain ⟨hfirst, hnext, hle⟩ := range?_eq_some_iff.1 head
      have hend : next ≤ o.data.length := by
        have := tail.le
        omega
      have hsize : b.size.toInt.toNat = next - first := by omega
      rw [Object.bytes?, head]
      dsimp only
      rw [if_pos hend, Object.slice, hfirst, hsize, Int.toNat_natCast]
    · exact ih hlast hb

end Tile

end Block

/-! ## Objects that were read -/

namespace Session

/-- A data segment has a length of 63 bits. -/
theorem length_data_course_lt (events : List Event) (steps : List Step) :
    ((ofEvents events).course steps).2.contents.data.length < 2 ^ 63 := by
  refine course_induction (I := fun c => c.data.length < 2 ^ 63) ?_ (Nat.two_pow_pos 63) steps
  intro st c c' hc heffect
  cases st with
  | references =>
    obtain ⟨found, rfl⟩ := heffect
    exact hc
  | dataSegment =>
    obtain rfl | ⟨data, hdata, rfl⟩ := heffect
    · exact hc
    · exact hdata
  | symbols =>
    obtain ⟨found, rfl⟩ := heffect
    exact hc
  | _ => exact heffect ▸ hc

theorem object_of_decode {s : Session} {o : Object} (h : (decode s).1 = .ok o) :
    o = (s.course pipeline).2.contents.object := by
  rw [decode_eq_result] at h
  exact (result_eq_ok_iff.1 (Prod.ext h rfl)).2.1

end Session

namespace Object

/-- The blocks of an object whose sizes are in order are tiles from zero on. -/
theorem tile_blocks {o : Object} (hplaced : Block.Placed o.blocks)
    (hsizes : ∀ b ∈ o.blocks, 0 ≤ b.size) (hextent : o.extent < 2 ^ 63) :
    Block.Tile 0 o.blocks o.extent.toNat := by
  have hmap : (o.blocks.map Block.size).map Int64.toInt = o.blocks.map (·.size.toInt) := by
    rw [List.map_map]
    rfl
  have hzero : 0 ≤ (0 : Int64).toInt := by decide
  have hnonneg : ∀ size ∈ o.blocks.map Block.size, 0 ≤ size.toInt := by
    intro size hsize
    obtain ⟨b, hb, rfl⟩ := List.mem_map.1 hsize
    exact Int64.le_iff_toInt_le.1 (hsizes b hb)
  have htile := Block.tile_consecutive hzero hnonneg
    (by rwa [hmap, Int64.toInt_zero, Int.zero_add])
  rwa [← Block.placed_iff.1 hplaced, hmap, Int64.toInt_zero, Int.zero_add] at htile

/-- In an object that was read, however the session stood by then, the blocks lie one behind
another from the beginning of the data on, if no size is negative and all sizes together are
not more than there is data.  Then no two of them overlap, their bytes are the data up to the
end of the last block, and the block of every symbol is found.  If they are as much as there
is data, every byte of it lies in just one of the blocks. -/
theorem blocks_tile {events : List Event} {steps : List Session.Step} {o : Object}
    (h : (Session.decode ((Session.ofEvents events).course steps).2).1 = .ok o)
    (hsizes : ∀ b ∈ o.blocks, 0 ≤ b.size) (hextent : o.extent ≤ o.data.length) :
    Block.Tile 0 o.blocks o.extent.toNat ∧
    o.blocks.Pairwise (fun b b' => ∀ n, ¬(b.Covers n ∧ b'.Covers n)) ∧
    o.blocks.flatMap o.slice = o.data.take o.extent.toNat ∧
    (∀ s ∈ o.symbols, o.bytes? s.block = some (o.slice s.block)) ∧
    (o.extent = o.data.length →
      ∀ n < o.data.length, ∃! k : Fin o.blocks.length, o.blocks[k].Covers n) := by
  have hobject := Session.object_of_decode h
  rw [Session.snd_course_course] at hobject
  have hplaced : Block.Placed o.blocks := by
    rw [hobject]
    exact (Session.aligned_course events _).blocks
  have hlength : o.data.length < 2 ^ 63 := by
    rw [hobject]
    exact Session.length_data_course_lt events _
  have htile := tile_blocks hplaced hsizes (by omega)
  refine ⟨htile, htile.pairwise_disjoint, ?_, fun s hs => ?_, fun hall n hn => ?_⟩
  · rw [htile.flatMap_slice, List.drop_zero, Nat.sub_zero]
  · have hmem : s.block ∈ o.blocks := List.mem_flatMap.2 ⟨s, hs, List.mem_cons_self⟩
    exact htile.bytes?_eq_slice (by omega) hmem
  · exact htile.existsUnique_covers (Nat.zero_le n) (by omega)

/-- Five bytes: the block of a variable, that of a function, its stack maps and a further
table, with three blocks of no bytes in between. -/
theorem blocks_tile_function :
    let events : List Event :=
      [.data (Envelope.opening ++ [1, 0, 0xFF]), .data [10, 0, 0, 0, 0, 0, 1, 2, 3, 4, 5],
        .data [0xFE, 3, 2, 0, 0, 0, 2, 0],
        .data [0xFE, 1, 4, 0, 0, 0, 2, 0, 0, 0, 0, 0, 0, 4, 0, 0, 0, 2, 2, 0, 0, 0, 0xFF],
        .data Envelope.closing]
    let o := ((Session.ofEvents events).course Session.pipeline).2.contents.object
    (Session.decode ((Session.ofEvents events).course []).2).1 = .ok o ∧
      (∀ b ∈ o.blocks, 0 ≤ b.size) ∧ o.extent = o.data.length ∧
      o.blocks = [⟨1, 0⟩, ⟨1, 1⟩, ⟨2, 2⟩, ⟨0, 4⟩, ⟨0, 4⟩, ⟨0, 4⟩, ⟨1, 4⟩] ∧
      o.blocks.flatMap o.slice = [1, 2, 3, 4, 5] ∧
      ∀ n < o.data.length, ∃! k : Fin o.blocks.length, o.blocks[k].Covers n := by
  intro events o
  have hdecode : (Session.decode ((Session.ofEvents events).course []).2).1 = .ok o := by
    decide +kernel
  have hsizes : ∀ b ∈ o.blocks, 0 ≤ b.size := by decide +kernel
  have hextent : o.extent = o.data.length := by decide +kernel
  obtain ⟨-, -, hslices, -, hcovers⟩ := blocks_tile hdecode hsizes (Int.le_of_eq hextent)
  exact ⟨hdecode, hsizes, hextent, by decide +kernel, hslices.trans (by decide +kernel),
    hcovers hextent⟩

end Object

end ObjectFile
