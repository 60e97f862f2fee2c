import ObjectFile.Proofs.Numeral
/-!
# Hexadecimal numerals can be read back

The numeral of a signed number is a minus sign if the number is negative, `0x`, and the digits of
the magnitude.  This file has a reader of such numerals, which knows nothing of how they are
written, and says that it reads every number back from its numeral
(`Numeral.readSigned?_signedHex`).

The digits are those that the notation asks for (`Numeral.HexDigits`): lowercase, of the value of
the magnitude, and as few as there can be.  The magnitude is that of the number as such.  A machine
has it in a word of 64 bits, in which there is room for the magnitude of the least number too
(`Numeral.toNat_magnitude`).
-/

namespace ObjectFile.Numeral

/-! ## Reading -/

/-- The value of a lowercase hexadecimal digit. -/
def digitValue? (c : Char) : Option Nat :=
  if '0' ≤ c ∧ c ≤ '9' then some (c.toNat - '0'.toNat)
  else if 'a' ≤ c ∧ c ≤ 'f' then some (10 + (c.toNat - 'a'.toNat))
  else none

/-- The number that hexadecimal digits denote behind those of `value`. -/
def readDigitsFrom? : Nat → List Char → Option Nat
  | value, [] => some value
  | value, c :: cs => (digitValue? c).bind fun d => readDigitsFrom? (16 * value + d) cs

/-- The number that some hexadecimal digits denote. -/
def readDigits? : List Char → Option Nat
  | [] => none
  | c :: cs => readDigitsFrom? 0 (c :: cs)

/-- Reads `0x` and digits. -/
def readHex? : List Char → Option Nat
  | '0' :: 'x' :: cs => readDigits? cs
  | _ => none

/-- Reads a signed number: a minus sign or none, `0x` and digits. -/
def readSigned? (text : String) : Option Int :=
  match text.toList with
  | '-' :: cs => (readHex? cs).map fun n : Nat => -(n : Int)
  | cs => (readHex? cs).map fun n : Nat => (n : Int)

variable {n : Nat} {c : Char} {cs : List Char}

theorem readDigitsFrom?_append_singleton (value : Nat) :
    readDigitsFrom? value (cs ++ [c]) =
      (readDigitsFrom? value cs).bind fun m => (digitValue? c).map fun d => 16 * m + d := by
  induction cs generalizing value with
  | nil => cases hc : digitValue? c <;> simp [readDigitsFrom?, hc]
  | cons b cs ih => cases hb : digitValue? b <;> simp [readDigitsFrom?, hb, ih]

theorem readDigits?_of_ne_nil (h : cs ≠ []) : readDigits? cs = readDigitsFrom? 0 cs := by
  cases cs with
  | nil => contradiction
  | cons c cs => rfl

theorem digitValue?_digitChar (h : n < 16) : digitValue? n.digitChar = some n := by
  have hall : ∀ k < 16, digitValue? k.digitChar = some k := by decide
  exact hall n h

/-! ## The digits of a number -/

/-- The hexadecimal digits of a number: lowercase digits that denote it, without leading zeros. -/
structure HexDigits (cs : List Char) (n : Nat) : Prop where
  /-- All of them are lowercase digits, there is at least one, and together they denote `n`. -/
  read_eq : readDigits? cs = some n
  /-- A zero in front stands by itself. -/
  shortest : cs.head? = some '0' → cs = ['0']

/-- The last digit is the remainder, and those in front of it denote the quotient. -/
theorem readDigits?_toDigits (n : Nat) : readDigits? (Nat.toDigits 16 n) = some n := by
  rw [readDigits?_of_ne_nil Nat.toDigits_ne_nil]
  induction n using Nat.strongRecOn with
  | ind n ih =>
    rw [Nat.toDigits_eq_if (by decide)]
    split
    case isTrue hlt => simp [readDigitsFrom?, digitValue?_digitChar hlt]
    case isFalse hge =>
      rw [readDigitsFrom?_append_singleton, ih (n / 16) (by omega),
        digitValue?_digitChar (Nat.mod_lt n (by decide))]
      exact congrArg some (Nat.div_add_mod n 16)

/-- What is in front is in front of the digits of the quotient, down to the first of them. -/
theorem eq_zero_of_head?_toDigits (h : (Nat.toDigits 16 n).head? = some '0') : n = 0 := by
  induction n using Nat.strongRecOn with
  | ind n ih =>
    rw [Nat.toDigits_eq_if (by decide)] at h
    split at h
    case isTrue hlt => simpa using h
    case isFalse hge =>
      rw [List.head?_append_of_ne_nil _ Nat.toDigits_ne_nil] at h
      have hquotient := ih (n / 16) (by omega) h
      omega

theorem toDigits_eq_zero_iff : Nat.toDigits 16 n = ['0'] ↔ n = 0 :=
  ⟨fun h => eq_zero_of_head?_toDigits (congrArg List.head? h), fun h => h ▸ Nat.toDigits_zero 16⟩

theorem hexDigits_toDigits (n : Nat) : HexDigits (Nat.toDigits 16 n) n where
  read_eq := readDigits?_toDigits n
  shortest h := toDigits_eq_zero_iff.2 (eq_zero_of_head?_toDigits h)

/-! ## Signed numbers -/

theorem toList_hex (n : Nat) : (hex n).toList = '0' :: 'x' :: Nat.toDigits 16 n := by
  simp [hex, digits]

theorem toList_signedHex (n : Int) :
    (signedHex n).toList =
      (if n < 0 then ['-'] else []) ++ '0' :: 'x' :: Nat.toDigits 16 n.natAbs := by
  rw [signedHex]
  split <;> simp [toList_hex]

theorem readSigned?_signedHex (n : Int) : readSigned? (signedHex n) = some n := by
  have hdigits : readHex? ('0' :: 'x' :: Nat.toDigits 16 n.natAbs) = some n.natAbs :=
    readDigits?_toDigits n.natAbs
  rw [readSigned?, toList_signedHex]
  by_cases hneg : n < 0
  · have hmagnitude : -(n.natAbs : Int) = n := by omega
    rw [if_pos hneg]
    show (readHex? ('0' :: 'x' :: _)).map (fun m : Nat => -(m : Int)) = some n
    rw [hdigits, Option.map_some, hmagnitude]
  · have hmagnitude : (n.natAbs : Int) = n := by omega
    rw [if_neg hneg]
    show (readHex? ('0' :: 'x' :: _)).map (fun m : Nat => (m : Int)) = some n
    rw [hdigits, Option.map_some, hmagnitude]

/-! ## Numerals of 64 bits -/

theorem lt_zero_iff_toInt {v : Int64} : v < 0 ↔ v.toInt < 0 := by
  rw [Int64.lt_iff_toInt_lt, Int64.toInt_zero]

/-- The magnitude of a number as a word. -/
def magnitude (v : Int64) : UInt64 := if v < 0 then -v.toUInt64 else v.toUInt64

theorem toNat_magnitude (v : Int64) : (magnitude v).toNat = v.toInt.natAbs := by
  have hword : v.toUInt64.toNat < 2 ^ 64 := v.toUInt64.toNat_lt
  have hvalue : v.toInt = if 2 * v.toUInt64.toNat < 2 ^ 64 then (v.toUInt64.toNat : Int)
      else (v.toUInt64.toNat : Int) - (2 ^ 64 : Nat) :=
    BitVec.toInt_eq_toNat_cond v.toBitVec
  rw [magnitude]
  split
  case isTrue hneg =>
    rw [lt_zero_iff_toInt] at hneg
    rw [UInt64.toNat_neg, UInt64.size]
    split at hvalue <;> omega
  case isFalse hpos =>
    rw [lt_zero_iff_toInt] at hpos
    split at hvalue <;> omega

/-- What a machine shows that takes the magnitude in a word. -/
theorem signedHex_eq_magnitude (v : Int64) :
    signedHex v.toInt = (if v < 0 then "-" else "") ++ hex (magnitude v).toNat := by
  rw [signedHex, toNat_magnitude]
  by_cases hneg : v.toInt < 0
  · rw [if_pos hneg, if_pos (lt_zero_iff_toInt.2 hneg)]
  · rw [if_neg hneg, if_neg (mt lt_zero_iff_toInt.1 hneg), String.empty_append]

/-- The hexadecimal numeral of a number begins with a minus sign just if the number is negative.
Behind that stand `0x` and the lowercase digits of the magnitude without leading zeros, of which
zero has the single digit zero.  The magnitude is that of the number as such, and a word holds it
for every number.  The numeral is read back as the number, so numbers that are shown alike are the
same. -/
theorem signedHex_legible :
    (∀ v : Int64, ∃ cs, HexDigits cs v.toInt.natAbs ∧ (cs = ['0'] ↔ v = 0) ∧
      (signedHex v.toInt).toList = (if v < 0 then ['-'] else []) ++ '0' :: 'x' :: cs) ∧
    (∀ v : Int64, (signedHex v.toInt).toList.head? = some '-' ↔ v < 0) ∧
    (∀ v : Int64, (magnitude v).toNat = v.toInt.natAbs ∧
      signedHex v.toInt = (if v < 0 then "-" else "") ++ hex (magnitude v).toNat) ∧
    (∀ v : Int64, readSigned? (signedHex v.toInt) = some v.toInt) ∧
    ∀ u v : Int64, signedHex u.toInt = signedHex v.toInt ↔ u = v := by
  refine ⟨fun v => ?_, fun v => ?_, fun v => ⟨toNat_magnitude v, signedHex_eq_magnitude v⟩,
    fun v => readSigned?_signedHex v.toInt, fun u v => ⟨fun h => ?_, fun h => h ▸ rfl⟩⟩
  · refine ⟨_, hexDigits_toDigits v.toInt.natAbs, ?_, ?_⟩
    · rw [toDigits_eq_zero_iff, Int.natAbs_eq_zero, ← Int64.toInt_zero, Int64.toInt_inj]
    · rw [toList_signedHex]
      simp only [lt_zero_iff_toInt]
  · rw [toList_signedHex, lt_zero_iff_toInt]
    split <;> simp [*]
  · have hread := readSigned?_signedHex u.toInt
    rw [h, readSigned?_signedHex] at hread
    exact Int64.toInt_inj.1 (Option.some.inj hread).symm

/-- The least number, of which the magnitude is no number of its kind. -/
example : signedHex Int64.minValue.toInt = "-0x8000000000000000" := by decide +kernel

end ObjectFile.Numeral
