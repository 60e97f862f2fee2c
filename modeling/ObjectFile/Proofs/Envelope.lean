import Mathlib.Data.List.Induction
import ObjectFile.Envelope
import ObjectFile.Proofs.Loop
/-!
# What surrounds the tables

The parsers of the envelope accept exactly its words.  The scan for the first magic word
keeps the last bytes read in a window; so it comes to an end with the first occurrence of
the word (`Parser.accepts_header`), and when it is stopped before that there was none
(`Parser.stops_header`).
-/

namespace ObjectFile

/-- A list with an occurrence of another one has a front part that ends with the first
occurrence. -/
theorem exists_first_infix {α : Type} {l s : List α} (h : l <:+: s) (hl : l ≠ []) :
    ∃ w r, s = w ++ r ∧ l <:+ w ∧ ¬ l <:+: w.dropLast := by
  induction s using List.reverseRecOn with
  | nil => exact absurd (List.infix_nil.1 h) hl
  | append_singleton s b ih =>
    -- an occurrence that the last byte does not complete is one in `s`
    by_cases hs : l <:+: s
    · obtain ⟨w, r, rfl, hw, hfirst⟩ := ih hs
      exact ⟨w, r ++ [b], by simp, hw, hfirst⟩
    · have hend := (List.infix_concat_iff.1 h).resolve_right hs
      exact ⟨s ++ [b], [], by simp, hend, by simpa using hs⟩

namespace Envelope

/-- As many bytes from the end as the magic word has. -/
def lastBytes (u : List UInt8) : List UInt8 := u.drop (u.length - opening.length)

/-- The window holds the last bytes read. -/
theorem slide_lastBytes (u : List UInt8) (b : UInt8) :
    slide (lastBytes u) b = lastBytes (u ++ [b]) := by
  have hlen : opening.length = 8 := rfl
  rw [slide, lastBytes, lastBytes, hlen, List.length_drop, List.length_append,
    List.length_singleton]
  by_cases h : u.length < 8
  · rw [if_pos (by omega), show u.length - 8 = 0 by omega, show u.length + 1 - 8 = 0 by omega]
    rfl
  · rw [if_neg (by omega), ← List.drop_one, List.drop_drop, List.drop_append_of_le_length (by omega)]
    congr 2
    omega

theorem lastBytes_eq_opening_iff {u : List UInt8} : lastBytes u = opening ↔ opening <:+ u := by
  constructor
  · intro h
    rw [← h]
    exact List.drop_suffix _ _
  · rintro ⟨noise, rfl⟩
    simp [lastBytes]

/-- The magic word overlaps with itself nowhere, so noise without it does not make it occur
before its place. -/
theorem not_infix_dropLast {noise : List UInt8} (h : ¬ opening <:+: noise) :
    ¬ opening <:+: (noise ++ opening).dropLast := by
  have hlast : opening = opening.dropLast ++ [0x64] := rfl
  rintro ⟨a, b, hab⟩
  rw [List.dropLast_append_of_ne_nil (by decide)] at hab
  obtain ⟨c, hc, hb⟩ | ⟨c, hc, hb⟩ := List.append_eq_append_iff.1 hab
  · exact h ⟨a, c, hc.symm⟩
  · -- otherwise the last byte of the word stands among those before it
    rcases List.eq_nil_or_concat c with rfl | ⟨d, x, rfl⟩
    · exact h ⟨a, [], by simpa using hc⟩
    · rw [List.concat_eq_append] at hc hb
      rw [hlast, ← List.append_assoc, ← List.append_assoc] at hc
      have hx : 0x64 = x := List.singleton_inj.1 (List.append_inj' hc rfl).2
      have hmem : (0x64 : UInt8) ∈ opening.dropLast := by simp [hb, hx]
      exact absurd hmem (by decide)

end Envelope

/-- The fault of an early end in other words; any other fault as it is. -/
def Fault.retold (fault : Fault) : Fault → Fault
  | .truncated _ => fault
  | other => other

namespace Parser

variable {α : Type}

open Envelope

theorem Accepts.onTruncation {p : Parser α} {w : List UInt8} {a : α} (h : p.Accepts w a)
    (fault : Fault) : (p.onTruncation fault).Accepts w a := by
  intro i t hi
  obtain ⟨j, hj, hjt⟩ := h i t hi
  refine ⟨j, ?_, hjt⟩
  simp only [Parser.onTruncation, hj]

theorem Stops.onTruncation {p : Parser α} {w : List UInt8} (h : p.Stops w .error)
    (fault : Fault) : (p.onTruncation fault).Stops w fun f => .error (fault.retold f) := by
  intro i t f rest hi ht
  obtain ⟨j, hj, hjt⟩ := h i t f rest hi ht
  refine ⟨j, ?_, hjt⟩
  simp only [Parser.onTruncation, hj]
  cases f <;> rfl

/-! ## The header -/

/-- The scan for the magic word from a window on. -/
def search (window : List UInt8) : Parser Unit :=
  scan (fun window b =>
    let window := slide window b
    return if window = opening then .inr () else .inl window) window >>= fun r => settle r.2

theorem search_eq (u : List UInt8) :
    search (lastBytes u) = byte >>= fun b =>
      if opening <:+ u ++ [b] then pure () else search (lastBytes (u ++ [b])) := by
  rw [search, scan_bind_eq fun _ _ => rfl]
  congr 1
  funext b
  simp only [slide_lastBytes, lastBytes_eq_opening_iff]
  split <;> rfl

theorem header_eq : header = (search (lastBytes [])).onTruncation .noHeader := rfl

/-- While the word has not occurred, the scan goes on. -/
theorem stops_search {u w : List UInt8} (h : ¬ opening <:+: u ++ w) :
    (search (lastBytes u)).Stops w .error := by
  induction w generalizing u with
  | nil =>
    rw [search_eq]
    exact stops_byte.bind_error (h := id) _
  | cons b w ih =>
    rw [List.append_cons] at h
    have hb : ¬ opening <:+ u ++ [b] := fun hb => h (hb.isInfix.trans (List.prefix_append _ _).isInfix)
    rw [search_eq]
    refine (decides_byte b).bind_stops (v := w) ?_
    rw [if_neg hb]
    exact ih h

/-- With the first occurrence of the word, the scan ends. -/
theorem accepts_search {u w : List UInt8} (hw : w ≠ []) (h : opening <:+ u ++ w)
    (hfirst : ¬ opening <:+: (u ++ w).dropLast) : (search (lastBytes u)).Accepts w () := by
  induction w generalizing u with
  | nil => exact absurd rfl hw
  | cons b w ih =>
    rw [search_eq]
    refine Accepts.byte_bind ?_
    rw [List.append_cons] at h hfirst
    -- the word is complete just if no bytes are left, as it does not occur before
    by_cases hnil : w = []
    · subst hnil
      rw [List.append_nil] at h
      rw [if_pos h]
      exact accepts_pure.2 ⟨rfl, rfl⟩
    · rw [List.dropLast_append_of_ne_nil hnil] at hfirst
      have hb : ¬ opening <:+ u ++ [b] := fun hb =>
        hfirst (hb.isInfix.trans (List.prefix_append _ _).isInfix)
      rw [if_neg hb]
      exact ih hnil h (by rwa [List.dropLast_append_of_ne_nil hnil])

/-- Data that ends before the magic word has no header. -/
theorem stops_header {w : List UInt8} (h : ¬ opening <:+: w) :
    header.Stops w fun fault => .error (Fault.retold .noHeader fault) := by
  rw [header_eq]
  exact (stops_search (u := []) h).onTruncation .noHeader

theorem accepts_header_of_first {w : List UInt8} (h : opening <:+ w)
    (hfirst : ¬ opening <:+: w.dropLast) : header.Accepts w () := by
  rw [header_eq]
  refine (accepts_search (u := []) ?_ h hfirst).onTruncation .noHeader
  rintro rfl
  exact absurd (List.suffix_nil.1 h) (by decide)

/-- The header ends with the first occurrence of the magic word. -/
theorem accepts_header {w : List UInt8} :
    header.Accepts w () ↔ ∃ noise, Grammar.Opening w noise := by
  constructor
  · intro h
    by_cases hw : opening <:+: w
    · obtain ⟨v, r, rfl, ⟨noise, hv⟩, hfirst⟩ := exists_first_infix hw (by decide)
      obtain ⟨rfl, -⟩ := Decides.unique h (accepts_header_of_first ⟨noise, hv⟩ hfirst)
      rw [List.append_nil]
      exact ⟨noise, hv.symm, hfirst⟩
    · have hrun := (Decides.run_ofBytes h []).1
      rw [List.append_nil, (stops_header hw).run_ofBytes.1] at hrun
      cases hrun
  · rintro ⟨noise, rfl, hfirst⟩
    exact accepts_header_of_first (List.suffix_append _ _) hfirst

instance : header.Firm := by
  refine ⟨fun s => ?_⟩
  by_cases h : opening <:+: s
  · obtain ⟨w, r, rfl, hw, hfirst⟩ := exists_first_infix h (by decide)
    exact .inr ⟨w, r, _, rfl, accepts_header_of_first hw hfirst⟩
  · exact .inl ⟨_, ⟨_, rfl⟩, stops_header h⟩

/-! ## The version and the names of dependencies -/

instance : version.Steady := by
  unfold version
  infer_instance

theorem accepts_version {w : List UInt8} {v : UInt8} :
    version.Accepts w v ↔ w = [currentVersion] ∧ v = currentVersion := by
  simp only [version, accepts_bind, accepts_byte]
  constructor
  · rintro ⟨_, x, b, rfl, rfl, h⟩
    split at h
    · rename_i hb
      obtain ⟨rfl, rfl⟩ := accepts_pure.1 h
      exact ⟨by rw [hb]; rfl, hb⟩
    · exact absurd h accepts_fail
  · rintro ⟨rfl, rfl⟩
    refine ⟨_, [], _, rfl, rfl, ?_⟩
    rw [if_pos rfl]
    exact accepts_pure.2 ⟨rfl, rfl⟩

/-- The scan for the zero byte behind the names, of which so many bytes have been read. -/
def names (count : Nat) : Parser Nat :=
  scan (fun count b => return if b = 0 then .inr count else .inl (count + 1)) count >>=
    fun r => settle r.2

theorem dependencies_eq : dependencies = names 0 := rfl

theorem names_eq (count : Nat) :
    names count = byte >>= fun b => if b = 0 then pure count else names (count + 1) := by
  rw [names, scan_bind_eq fun _ _ => rfl]
  congr 1
  funext b
  split <;> rfl

instance (count : Nat) : (names count).Steady :=
  have (t a : Nat) : (settle (t, Except.ok a).2).Steady := inferInstanceAs (pure a : Parser Nat).Steady
  steady_scan_bind fun _ _ => rfl

instance : dependencies.Steady := inferInstanceAs (names 0).Steady

theorem accepts_names {count size : Nat} {w : List UInt8} :
    (names count).Accepts w size ↔ ∃ u, w = u ++ [0] ∧ 0 ∉ u ∧ size = count + u.length := by
  induction w generalizing count with
  | nil =>
    rw [names_eq, accepts_bind]
    constructor
    · rintro ⟨u, v, b, h, hu, -⟩
      rw [accepts_byte.1 hu] at h
      cases h
    · rintro ⟨u, h, -⟩
      simp at h
  | cons c w ih =>
    simp only [names_eq count, accepts_bind, accepts_byte]
    constructor
    · rintro ⟨_, v, b, h, rfl, hb⟩
      obtain ⟨rfl, rfl⟩ := List.cons.inj h
      split at hb
      · rename_i hzero
        obtain ⟨rfl, rfl⟩ := accepts_pure.1 hb
        exact ⟨[], by simp [hzero], by simp, by simp⟩
      · rename_i hzero
        obtain ⟨u, rfl, hu, rfl⟩ := ih.1 hb
        refine ⟨c :: u, rfl, ?_, by simp; omega⟩
        simpa [hu] using Ne.symm hzero
    · rintro ⟨u, h, hu, rfl⟩
      refine ⟨[c], w, c, rfl, rfl, ?_⟩
      cases u with
      | nil =>
        obtain ⟨rfl, rfl⟩ := List.cons.inj h
        rw [if_pos rfl]
        exact accepts_pure.2 ⟨rfl, rfl⟩
      | cons x u =>
        obtain ⟨rfl, rfl⟩ := List.cons.inj h
        rw [if_neg (by rintro rfl; simp at hu), ih]
        exact ⟨u, rfl, by simp at hu; exact hu.2, by simp; omega⟩

/-- The names of dependencies end at the first zero byte. -/
theorem accepts_dependencies {w : List UInt8} {size : Nat} :
    dependencies.Accepts w size ↔ ∃ u, w = u ++ [0] ∧ 0 ∉ u ∧ size = u.length := by
  rw [dependencies_eq, accepts_names]
  simp

/-! ## The footer -/

instance : footer.Steady := by
  unfold footer
  infer_instance

theorem accepts_footer {w : List UInt8} : footer.Accepts w () ↔ w = closing := by
  simp only [footer, accepts_bind, accepts_take]
  constructor
  · rintro ⟨u, v, bytes, rfl, ⟨-, rfl⟩, h⟩
    split at h
    · rename_i hb
      obtain ⟨rfl, -⟩ := accepts_pure.1 h
      rw [hb, List.append_nil]
    · exact absurd h accepts_fail
  · rintro rfl
    refine ⟨closing, [], closing, rfl, ⟨rfl, rfl⟩, ?_⟩
    rw [if_pos rfl]
    exact accepts_pure.2 ⟨rfl, rfl⟩

end Parser

end ObjectFile
