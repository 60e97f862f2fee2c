/-!
# Numerals

The two notations in which numbers are shown: decimal, with a minus sign in front of a
negative number, and lowercase hexadecimal behind `0x`, without leading zeros.  A signed
number in hexadecimal is its sign followed by its magnitude, so the notation does not
depend on a word size; a byte in a dump is always two digits and has no `0x`.
-/

namespace ObjectFile.Numeral

/-- The digits of a natural number in a base of at most sixteen. -/
def digits (base n : Nat) : String := String.ofList (Nat.toDigits base n)

/-- A natural number in decimal notation. -/
def natural (n : Nat) : String := digits 10 n

/-- A number in decimal notation. -/
def decimal (n : Int) : String :=
  if n < 0 then "-" ++ natural n.natAbs else natural n.natAbs

/-- A natural number in hexadecimal notation. -/
def hex (n : Nat) : String := "0x" ++ digits 16 n

/-- A signed number in hexadecimal notation: its sign, then its magnitude. -/
def signedHex (n : Int) : String :=
  if n < 0 then "-" ++ hex n.natAbs else hex n.natAbs

/-- A byte as two hexadecimal digits. -/
def byteHex (b : UInt8) : String :=
  String.ofList [Nat.digitChar (b.toNat / 16), Nat.digitChar (b.toNat % 16)]

example : signedHex (-16) = "-0x10" := by decide +kernel
example : byteHex 0x0a = "0a" := by decide +kernel

end ObjectFile.Numeral
