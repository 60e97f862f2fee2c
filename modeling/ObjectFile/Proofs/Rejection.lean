import ObjectFile.Proofs.Number
/-!
# How bytes are rejected

A parser that decides on bytes and fails has found something wrong in them, and is not just
short of bytes: no parser does both (`Parser.Decides.not_stops`).  So a sequence of parsers
rejects bytes in its first part, or in its second part behind what the first accepts
(`Parser.decides_bind_error`), and this goes for every parser that is made of others.

The rejections that are known exactly are those of the smallest parsers.  Taking bytes rejects
nothing, and a number is rejected just when all its bytes have their high bit set
(`Parser.decides_uvarintFrom_error`).
-/

namespace ObjectFile

namespace Parser

variable {α β : Type} {w : List UInt8} {fault : Fault}

/-- A parser that decides on bytes does not ask for more. -/
theorem Decides.not_stops {p : Parser α} {out : Except Fault α} {f : Fault → Except Fault α}
    (h : p.Decides w out) : ¬ p.Stops w f := by
  intro hs
  rw [← List.append_nil w] at hs
  exact hs.not_decides h

/-! ## Sequences -/

/-- A sequence rejects bytes in its first part, or in its second part behind what the first
accepts. -/
theorem decides_bind_error {p : Parser α} {g : α → Parser β} [hp : p.Firm]
    [hg : ∀ a, (g a).Firm] :
    (p >>= g).Decides w (.error fault) ↔
      p.Decides w (.error fault) ∨
        ∃ u v a, w = u ++ v ∧ p.Accepts u a ∧ (g a).Decides v (.error fault) := by
  constructor
  · intro h
    -- neither part is stopped, as then the sequence would be
    obtain ⟨_, ⟨f, rfl⟩, hs⟩ | ⟨u, r, out, rfl, hu⟩ := hp.online w
    · exact absurd (hs.bind_error g) h.not_stops
    · cases out with
      | error first =>
        obtain ⟨rfl, hfault⟩ := h.unique (hu.bind_error g)
        cases hfault
        exact .inl (by simpa using hu)
      | ok a =>
        obtain ⟨_, ⟨f, rfl⟩, hs⟩ | ⟨v, r, out, rfl, hv⟩ := (hg a).online r
        · exact absurd (hu.bind_stops hs) h.not_stops
        · rw [← List.append_assoc] at h
          obtain ⟨rfl, rfl⟩ := h.unique (hu.bind hv)
          exact .inr ⟨u, v, a, by simp, hu, hv⟩
  · rintro (h | ⟨u, v, a, rfl, hu, hv⟩)
    · exact h.bind_error g
    · exact Decides.bind hu hv

theorem decides_pure_error {a : α} : ¬ (pure a : Parser α).Decides w (.error fault) := by
  intro h
  obtain ⟨j, hj, -⟩ := h (.ofBytes w) [] (by simp)
  cases hj

/-- A function of the value makes no fault. -/
theorem decides_map_error {p : Parser α} {f : α → β} [p.Firm] :
    (f <$> p).Decides w (.error fault) ↔ p.Decides w (.error fault) := by
  show (p >>= fun a => pure (f a)).Decides w (.error fault) ↔ _
  rw [decides_bind_error]
  refine or_iff_left ?_
  rintro ⟨u, v, a, -, -, hv⟩
  exact decides_pure_error hv

theorem decides_fail_error {first : Fault} :
    (fail first : Parser α).Decides w (.error fault) ↔ w = [] ∧ fault = first := by
  constructor
  · intro h
    have hnil : (fail first : Parser α).Decides ([] ++ w) (.error fault) := h
    obtain ⟨rfl, hfault⟩ := hnil.unique (decides_fail first)
    cases hfault
    exact ⟨rfl, rfl⟩
  · rintro ⟨rfl, rfl⟩
    exact decides_fail fault

/-! ## Bytes and numbers -/

theorem decides_take_error {n : Nat} : ¬ (take n).Decides w (.error fault) := by
  intro h
  by_cases hn : w.length < n
  · exact h.not_stops (stops_take hn)
  · have hd := decides_take (w.take n)
    rw [List.length_take, Nat.min_eq_left (Nat.not_lt.1 hn)] at hd
    rw [← List.take_append_drop n w] at h
    cases (h.unique hd).2

theorem decides_byte_error : ¬ byte.Decides w (.error fault) := by
  intro h
  obtain h | ⟨u, v, bytes, -, -, hv⟩ := decides_bind_error.1 h
  · exact decides_take_error h
  · exact decides_pure_error hv

/-- What begins with a byte rejects bytes behind the first one. -/
theorem decides_byte_bind_error {g : UInt8 → Parser β} [∀ b, (g b).Firm] :
    (byte >>= g).Decides w (.error fault) ↔
      ∃ b v, w = b :: v ∧ (g b).Decides v (.error fault) := by
  rw [decides_bind_error, or_iff_right decides_byte_error]
  constructor
  · rintro ⟨_, v, b, rfl, hb, hv⟩
    rw [accepts_byte.1 hb]
    exact ⟨b, v, rfl, hv⟩
  · rintro ⟨b, v, rfl, hv⟩
    exact ⟨[b], v, b, rfl, accepts_byte.2 rfl, hv⟩

/-- Groups are rejected when there are as many as may be and each says that another one
follows. -/
theorem decides_uvarintFrom_error {groups shift : Nat} {value : UInt64} :
    (uvarintFrom groups shift value).Decides w (.error fault) ↔
      fault = .longNumber ∧ w.length = groups ∧ ∀ b ∈ w, 0x80 ≤ b := by
  induction groups generalizing shift value w with
  | zero =>
    rw [uvarintFrom, decides_fail_error, List.length_eq_zero_iff]
    constructor
    · rintro ⟨rfl, rfl⟩
      simp
    · rintro ⟨rfl, rfl, -⟩
      exact ⟨rfl, rfl⟩
  | succ groups ih =>
    simp only [uvarintFrom, decides_byte_bind_error]
    constructor
    · rintro ⟨b, v, rfl, h⟩
      split at h
      · exact absurd h decides_pure_error
      · rename_i hb
        obtain ⟨rfl, hlen, hv⟩ := ih.1 h
        exact ⟨rfl, by simp [hlen], by simpa [UInt8.not_lt.1 hb] using hv⟩
    · rintro ⟨rfl, hlen, hw⟩
      cases w with
      | nil => simp at hlen
      | cons b v =>
        rw [List.forall_mem_cons] at hw
        refine ⟨b, v, rfl, ?_⟩
        rw [if_neg (UInt8.not_lt.2 hw.1), ih]
        exact ⟨rfl, by simpa using hlen, hw.2⟩

/-- A number is rejected for nothing but its length, which is more than ten bytes. -/
theorem decides_uvarint_error :
    uvarint.Decides w (.error fault) ↔
      fault = .longNumber ∧ w.length = 10 ∧ ∀ b ∈ w, 0x80 ≤ b :=
  decides_uvarintFrom_error

/-- Fewer than ten bytes with their high bit set are not yet a number. -/
theorem stops_uvarint (hlen : w.length < 10) (hhigh : ∀ b ∈ w, 0x80 ≤ b) :
    uvarint.Stops w .error := by
  obtain ⟨_, rfl, hs⟩ | ⟨u, r, out, rfl, hu⟩ := Steady.online (p := uvarint) w
  · exact hs
  · exfalso
    cases out with
    | error first =>
      obtain ⟨-, hten, -⟩ := decides_uvarint_error.1 hu
      rw [List.length_append] at hlen
      omega
    | ok word =>
      -- the last byte of a number has no high bit
      obtain ⟨⟨front, last, rfl, -, -, hlast⟩, -⟩ := accepts_uvarint.1 hu
      exact absurd (hhigh last (by simp)) (UInt8.not_le.2 hlast)

/-- What an unsigned number is can be seen from the first ten bytes. -/
theorem uvarint_firstTen (s : List UInt8) :
    (∃ w out, w <+: s.take 10 ∧ uvarint.Decides w out) ∨
      s.length < 10 ∧ uvarint.Stops s .error := by
  by_cases hlow : ∃ b ∈ s.take 10, b < 0x80
  · obtain ⟨w, r, rfl, hw⟩ := exists_groups_iff.1 hlow
    exact .inl ⟨w, .ok (.ofNat (Grammar.base128 w)),
      List.prefix_take_iff.2 ⟨List.prefix_append w r, length_le_of_groups hw⟩,
      accepts_uvarint.2 ⟨hw, UInt64.toNat_ofNat'⟩⟩
  · simp only [not_exists, not_and, UInt8.not_lt] at hlow
    by_cases hlen : s.length < 10
    · rw [List.take_of_length_le (by omega)] at hlow
      exact .inr ⟨hlen, stops_uvarint hlen hlow⟩
    · exact .inl ⟨s.take 10, .error .longNumber, List.prefix_rfl,
        decides_uvarint_error.2 ⟨rfl, List.length_take_of_le (by omega), hlow⟩⟩

end Parser

end ObjectFile
