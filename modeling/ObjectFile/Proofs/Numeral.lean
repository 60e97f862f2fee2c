import Mathlib.Data.List.Basic
import ObjectFile.Numeral
/-!
# Numerals tell numbers apart

Numbers that are shown alike are the same number, in decimal as in hexadecimal notation and
for negative numbers as for others (`decimal_injective`, `signedHex_injective`), and so are bytes
(`byteHex_injective`).  A numeral is made of digits and signs only, so it ends before the first
blank behind it, and begins behind the last blank in front of it.
-/

namespace ObjectFile

/-- What stands in front of the first place of something, and what stands behind it, is told by
the whole. -/
theorem append_cons_inj {α : Type} {a : α} {u v x y : List α} (hu : a ∉ u) (hv : a ∉ v) :
    u ++ a :: x = v ++ a :: y ↔ u = v ∧ x = y := by
  induction u generalizing v with
  | nil =>
    cases v with
    | nil => simp
    | cons c v => simpa using fun h => absurd (List.mem_cons.2 (.inl h)) hv
  | cons b u ih =>
    cases v with
    | nil => simpa using fun h => absurd (List.mem_cons.2 (.inl h.symm)) hu
    | cons c v =>
      have hrest := ih (List.not_mem_of_not_mem_cons hu) (List.not_mem_of_not_mem_cons hv)
      simp [hrest, and_assoc]

namespace Numeral

variable {base m n : Nat} {c : Char}

/-! ## Digits -/

theorem digitChar_injective (hm : m < 16) (hn : n < 16) (h : m.digitChar = n.digitChar) :
    m = n := by
  have hall : ∀ k < 16, ∀ l < 16, k.digitChar = l.digitChar → k = l := by decide
  exact hall m hm n hn h

theorem mem_toDigits (hone : 1 < base) (h : c ∈ Nat.toDigits base n) :
    ∃ d < base, c = d.digitChar := by
  induction n using Nat.strongRecOn with
  | ind n ih =>
    rw [Nat.toDigits_eq_if hone] at h
    split at h
    · rename_i hlt
      exact ⟨n, hlt, List.mem_singleton.1 h⟩
    · rename_i hle
      rcases List.mem_append.1 h with hfront | hlast
      · exact ih (n / base) (Nat.div_lt_self (by omega) hone) hfront
      · exact ⟨n % base, Nat.mod_lt n (by omega), List.mem_singleton.1 hlast⟩

/-- The last digit is the remainder, and those in front of it are the digits of the quotient;
a number of one digit has nothing in front of it. -/
theorem toDigits_injective (hone : 1 < base) (hbase : base ≤ 16) :
    Function.Injective (Nat.toDigits base) := by
  intro m n h
  induction m using Nat.strongRecOn generalizing n with
  | ind m ih =>
    rw [Nat.toDigits_eq_if hone, Nat.toDigits_eq_if hone (n := n)] at h
    split at h <;> split at h
    · exact digitChar_injective (by omega) (by omega) (List.singleton_inj.1 h)
    · have hnil := (List.append_inj' ((List.nil_append _).trans h) rfl).1
      exact absurd hnil.symm Nat.toDigits_ne_nil
    · have hnil := (List.append_inj' (h.trans (List.nil_append _).symm) rfl).1
      exact absurd hnil Nat.toDigits_ne_nil
    · obtain ⟨hfront, hlast⟩ := List.append_inj' h rfl
      have hmod : m % base = n % base := by
        have := Nat.mod_lt m (by omega : 0 < base)
        have := Nat.mod_lt n (by omega : 0 < base)
        exact digitChar_injective (by omega) (by omega) (List.singleton_inj.1 hlast)
      have hdiv : m / base = n / base := ih _ (Nat.div_lt_self (by omega) hone) hfront
      rw [← Nat.div_add_mod m base, ← Nat.div_add_mod n base, hdiv, hmod]

theorem digits_injective (hone : 1 < base) (hbase : base ≤ 16) : Function.Injective (digits base) :=
  fun _ _ h => toDigits_injective hone hbase (String.ofList_injective h)

theorem notMem_digits (hone : 1 < base) (hbase : base ≤ 16) (hc : ∀ d < 16, c ≠ d.digitChar) :
    c ∉ (digits base n).toList := by
  rw [digits, String.toList_ofList]
  intro h
  obtain ⟨d, hd, heq⟩ := mem_toDigits hone h
  exact hc d (by omega) heq

theorem natural_injective : Function.Injective natural :=
  digits_injective (by decide) (by decide)

theorem hex_injective : Function.Injective hex := fun _ _ h =>
  digits_injective (by decide) (by decide) ((String.append_right_inj _).1 h)

theorem notMem_natural (hc : ∀ d < 16, c ≠ d.digitChar) (n : Nat) : c ∉ (natural n).toList :=
  notMem_digits (by decide) (by decide) hc

theorem notMem_hex (hx : c ∉ "0x".toList) (hc : ∀ d < 16, c ≠ d.digitChar) (n : Nat) :
    c ∉ (hex n).toList := by
  rw [hex, String.toList_append, List.mem_append, not_or]
  exact ⟨hx, notMem_digits (by decide) (by decide) hc⟩

/-! ## Signs -/

/-- A sign in front of some numerals tells them from the others, if none begins with a sign. -/
theorem signed_injective {shown : Nat → String} (hshown : Function.Injective shown)
    (hsign : ∀ n, '-' ∉ (shown n).toList) :
    Function.Injective fun n : Int => if n < 0 then "-" ++ shown n.natAbs else shown n.natAbs := by
  have hmixed : ∀ k l, "-" ++ shown k ≠ shown l := by
    intro k l h
    apply hsign l
    rw [← h, String.toList_append]
    exact List.mem_append_left _ (by decide)
  intro m n h
  dsimp only at h
  split at h <;> split at h
  · have := hshown ((String.append_right_inj _).1 h)
    omega
  · exact absurd h (hmixed _ _)
  · exact absurd h.symm (hmixed _ _)
  · have := hshown h
    omega

theorem decimal_injective : Function.Injective decimal :=
  signed_injective natural_injective (notMem_natural (by decide))

theorem signedHex_injective : Function.Injective signedHex :=
  signed_injective hex_injective (notMem_hex (by decide) (by decide))

theorem notMem_signed {shown : Nat → String} (hsign : c ≠ '-') (hshown : ∀ n, c ∉ (shown n).toList)
    (n : Int) : c ∉ (if n < 0 then "-" ++ shown n.natAbs else shown n.natAbs).toList := by
  split
  · rw [String.toList_append, List.mem_append, not_or]
    exact ⟨by simpa using hsign, hshown _⟩
  · exact hshown _

theorem blank_notMem_decimal (n : Int) : ' ' ∉ (decimal n).toList :=
  notMem_signed (by decide) (notMem_natural (by decide)) n

theorem blank_notMem_signedHex (n : Int) : ' ' ∉ (signedHex n).toList :=
  notMem_signed (by decide) (notMem_hex (by decide) (by decide)) n

/-! ## Bytes -/

theorem byteHex_injective : Function.Injective byteHex := by
  intro a b h
  have hdigits := String.ofList_injective h
  have ha := a.toNat_lt
  have hb := b.toNat_lt
  simp only [List.cons.injEq, and_true] at hdigits
  have hhigh := digitChar_injective (by omega) (by omega) hdigits.1
  have hlow := digitChar_injective (by omega) (by omega) hdigits.2
  exact UInt8.toNat_inj.1 (by omega)

theorem length_byteHex (b : UInt8) : (byteHex b).toList.length = 2 := by
  rw [byteHex, String.toList_ofList]
  rfl

end Numeral

end ObjectFile
