import ObjectFile.Parser
/-!
# What surrounds the tables

An object file begins, after noise of any length, with a magic word and a version, followed
by the names of the objects it depends on, which end at a zero byte; it ends with a second
magic word.  What comes before the first and after the second magic word is not looked at.
-/

namespace ObjectFile

namespace Envelope

/-- The word that ends the noise. -/
def opening : List UInt8 := [0x00, 0x00, 0x67, 0x6F, 0x31, 0x39, 0x6C, 0x64]

/-- The word that ends the file. -/
def closing : List UInt8 := [0xFF, 0x67, 0x6F, 0x31, 0x39, 0x6C, 0x64]

/-- The one version that is read. -/
def currentVersion : UInt8 := 1

/-- The last bytes read, as many as the magic word has, after one more byte. -/
def slide (window : List UInt8) (b : UInt8) : List UInt8 :=
  (if window.length < opening.length then window else window.tail) ++ [b]

end Envelope

namespace Parser

open Envelope

/-- Takes bytes up to the end of the first magic word.  When the data ends before it, there
is no header. -/
def header : Parser Unit :=
  onTruncation
    (do
      let (_, outcome) ← scan (fun window b =>
        let window := slide window b
        return if window = opening then .inr () else .inl window) []
      settle outcome)
    .noHeader

/-- The version, which has to be the supported one. -/
def version : Parser UInt8 := do
  let v ← byte
  if v = currentVersion then return v else fail (.wrongVersion v)

/-- Takes the names of dependencies and the zero byte behind them; gives the number of bytes
that the names have. -/
def dependencies : Parser Nat := do
  let (_, outcome) ← scan (fun count b =>
    return if b = 0 then .inr count else .inl (count + 1)) 0
  settle outcome

/-- Takes the magic word at the end. -/
def footer : Parser Unit := do
  let bytes ← take closing.length
  if bytes = closing then return () else fail (.wrongFooter bytes)

end Parser

end ObjectFile
