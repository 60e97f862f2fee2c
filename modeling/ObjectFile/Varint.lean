import ObjectFile.Parser
import ObjectFile.Utf8
/-!
# Numbers and text of varying length

A signed number is first mapped to an unsigned one, so that numbers of small magnitude
become small (`Zigzag`), and then written in groups of seven bits, the lowest group first;
every byte but the last has its high bit set (`Varint`).  A text is its length in bytes and
then its bytes.

The writing functions give the shortest form of a number; the parsers take any form of at
most ten bytes.
-/

namespace ObjectFile

/-! ## Signed numbers as unsigned ones -/

namespace Zigzag

/-- Maps 0, -1, 1, -2, 2, … to 0, 1, 2, 3, 4, …. -/
def encode (value : Int64) : UInt64 := ((value <<< 1) ^^^ (value >>> 63)).toUInt64

/-- Maps 0, 1, 2, 3, 4, … to 0, -1, 1, -2, 2, …. -/
def decode (word : UInt64) : Int64 := (word >>> 1).toInt64 ^^^ -(word &&& 1).toInt64

end Zigzag

/-! ## Writing -/

namespace Varint

/-- The groups of a word, the lowest first. -/
def encodeWord (word : UInt64) : List UInt8 :=
  if word < 0x80 then [word.toUInt8]
  else (word.toUInt8 ||| 0x80) :: encodeWord (word >>> 7)
termination_by word.toNat
decreasing_by
  simp only [UInt64.lt_iff_toNat_lt, UInt64.toNat_shiftRight, UInt64.reduceToNat] at *
  simp only [Nat.reduceMod, Nat.shiftRight_eq_div_pow]
  omega

/-- The shortest form of a signed number. -/
def encode (value : Int64) : List UInt8 := encodeWord (Zigzag.encode value)

/-- A text behind its length in bytes. -/
def encodeText (text : String) : List UInt8 :=
  let bytes := Utf8.encode text
  encode (Int64.ofNat bytes.length) ++ bytes

end Varint

/-! ## Reading -/

namespace Parser

/-- Reads at most so many more groups of an unsigned number.  The next group lies `shift`
bits up; `value` is made of the groups before it.  Bits beyond the sixty-fourth are
dropped. -/
def uvarintFrom : Nat → Nat → UInt64 → Parser UInt64
  | 0, _, _ => fail .longNumber
  | groups + 1, shift, value => do
    let b ← byte
    let value := value ||| ((b &&& 0x7F).toUInt64 <<< shift.toUInt64)
    if b < 0x80 then return value else uvarintFrom groups (shift + 7) value

/-- An unsigned number of at most ten groups. -/
def uvarint : Parser UInt64 := uvarintFrom 10 0 0

/-- A signed number. -/
def varint : Parser Int64 := do
  let word ← uvarint
  return Zigzag.decode word

/-- The length of something; `what` names it in the fault that a negative number is. -/
def length (what : String) : Parser Nat := do
  let value ← varint
  if value < 0 then fail (.negativeLength what value) else return value.toInt.toNat

/-- A text behind its length. -/
def text : Parser String := do
  let size ← length "string"
  let bytes ← block size
  return Utf8.decode bytes

end Parser

end ObjectFile
