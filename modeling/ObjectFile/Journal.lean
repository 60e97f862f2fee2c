import ObjectFile.Record
/-!
# The journal

While an object file is read, a journal is kept of how far reading came.  An entry says what
happened; its level, the part of the program that tells it and its wording all follow from
that.
-/

namespace ObjectFile.Journal

/-- How much it matters that an entry is seen. -/
inductive Level where
  | error | warn | info | debug | trace
deriving DecidableEq, Repr

namespace Level

/-- Entries that matter most have the lowest rank. -/
def rank : Level → Nat
  | error => 1
  | warn => 2
  | info => 3
  | debug => 4
  | trace => 5

/-- Every level, those that matter most first. -/
def all : List Level := [error, warn, info, debug, trace]

/-- The name by which a level is asked for. -/
def label : Level → String
  | error => "error"
  | warn => "warn"
  | info => "info"
  | debug => "debug"
  | trace => "trace"

/-- The name in front of an entry. -/
def name : Level → String
  | error => "ERROR"
  | warn => "WARN"
  | info => "INFO"
  | debug => "DEBUG"
  | trace => "TRACE"

end Level

/-- What happened. -/
inductive Entry where
  /-- A file of so many bytes was opened. -/
  | opened (name : String) (size : Nat)
  /-- The header ends after so many bytes. -/
  | header (consumed : Nat)
  /-- The version is this one. -/
  | version (v : UInt8)
  /-- The names of dependencies have so many bytes. -/
  | dependencies (size : Nat)
  /-- The reference of this index was read. -/
  | reference (index : Nat) (r : Reference)
  /-- The table of references was read; there are so many but for the first. -/
  | references (count : Nat)
  /-- The front of the data segment was read. -/
  | segment (head : SegmentHead)
  /-- A symbol was read. -/
  | symbol (s : Symbol)
  /-- The table of symbols was read; the blocks of so many symbols stop at this offset. -/
  | symbols (count : Nat) (stop : Int64)
  /-- The footer ends after so many bytes. -/
  | footer (consumed : Nat)
  /-- All was read: so many symbols, references and bytes of data. -/
  | totals (symbols references data : Nat)
deriving DecidableEq, Repr

namespace Entry

/-- How much an entry matters. -/
def level : Entry → Level
  | reference _ _ => .trace
  | symbol _ => .trace
  | _ => .debug

/-- The part of the program that tells an entry. -/
def target : Entry → String
  | opened _ _ => "goobj_reader"
  | totals _ _ _ => "readgoobj"
  | _ => "goobj_reader::decoder"

/-- The wording of an entry. -/
def message : Entry → String
  | opened name size => "mapped " ++ name ++ " (" ++ Numeral.natural size ++ " bytes)"
  | header consumed => "header magic ends at byte " ++ Numeral.natural consumed
  | version v => "object file version " ++ Numeral.natural v.toNat
  | dependencies size => "skipped " ++ Numeral.natural size ++ " bytes of dependency names"
  | reference index r =>
    "reference " ++ Numeral.natural index ++ ": " ++ r.name ++ " v" ++
      Numeral.decimal r.version.toInt
  | references n => "read " ++ Numeral.natural n ++ " symbol references"
  | segment head =>
    "data segment: " ++ Numeral.natural head.size ++ " bytes, sizing hints [" ++
      String.intercalate ", " (head.hints.toList.map (Numeral.decimal ·.toInt)) ++ "]"
  | symbol s =>
    "symbol " ++ Numeral.decimal s.id.toInt ++ " " ++ s.kind.name ++
      " size=" ++ Numeral.hex s.size.toUInt64.toNat ++
      " data=DataAddr \x7b size: " ++ Numeral.decimal s.block.size.toInt ++
      ", offset: " ++ Numeral.decimal s.block.offset.toInt ++
      " \x7d relocs=" ++ Numeral.natural s.relocations.length
  | symbols n stop =>
    "read " ++ Numeral.natural n ++ " symbols covering " ++ Numeral.decimal stop.toInt ++
      " data bytes"
  | footer consumed => "footer ok, " ++ Numeral.natural consumed ++ " bytes consumed"
  | totals defined referred size =>
    Numeral.natural defined ++ " symbols, " ++ Numeral.natural referred ++ " references, " ++
      Numeral.natural size ++ " data bytes"

/-- The line of an entry in the log. -/
def line (e : Entry) : String := e.level.name ++ " [" ++ e.target ++ "] " ++ e.message

end Entry

end ObjectFile.Journal
