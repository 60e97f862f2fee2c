import ObjectFile.Reader
import ObjectFile.Journal
import ObjectFile.Object
import ObjectFile.Record.Parser
/-!
# Sessions

A session reads one object file step by step: header, version, dependencies, references,
data segment, symbols, footer.  It holds what has been read so far, the offset at which the
next block of data will begin, and the journal.

The steps may be taken in any order and more than once: references and symbols add up, a
data segment replaces the one before.  A step that fails ends the session, as the fault
stays with the reader; what the step had read by then is seen in the journal only.
-/

namespace ObjectFile

/-- Where the reading of an object file stands. -/
structure Session where
  /-- What is left to read, and the first fault. -/
  reader : Reader
  /-- The references so far, behind the empty one. -/
  references : List Reference := [.empty]
  /-- The symbols so far. -/
  symbols : List Symbol := []
  /-- The data segment. -/
  data : List UInt8 := []
  /-- The offset at which the next block begins. -/
  next : Int64 := 0
  /-- What has happened. -/
  journal : List Journal.Entry := []

namespace Session

variable {α : Type}

/-- A session before the first delivery. -/
def ofEvents (events : List Event) : Session where
  reader := .ofEvents events

/-- The number of bytes taken. -/
def consumed (s : Session) : Nat := s.reader.consumed

/-- A part of a session: it may fail, and what happened by then remains. -/
abbrev Action (α : Type) := ExceptT Fault (StateM Session) α

/-- Runs a parser on the session's reader. -/
def read (p : Parser α) : Action α := ExceptT.mk fun s =>
  let (outcome, reader) := s.reader.attempt p
  (outcome, { s with reader })

/-- Ends the session with a fault, if that is what came of something. -/
def conclude : Except Fault α → Action α
  | .ok a => pure a
  | .error fault => ExceptT.mk fun s => (.error fault, { s with reader := s.reader.failWith fault })

/-- Makes an entry in the journal. -/
def note (entry : Journal.Entry) (s : Session) : Session :=
  { s with journal := s.journal ++ [entry] }

/-- Adds references. -/
def addReferences (found : List Reference) (s : Session) : Session :=
  { s with
    references := s.references ++ found
    journal := s.journal ++
      found.mapIdx fun k r => .reference (s.references.length + k) r }

/-- Adds the symbols of records; their blocks begin where those before them stop. -/
def addSymbols (found : List SymbolRecord) (s : Session) : Session :=
  let placed := SymbolRecord.placeAll s.next found
  { s with
    symbols := s.symbols ++ placed
    next := SymbolRecord.stopAll s.next found
    journal := s.journal ++ placed.map .symbol }

/-- The steps of a session. -/
inductive Step where
  | header
  | version
  | dependencies
  | references
  | dataSegment
  | symbols
  | footer
deriving DecidableEq, Repr

/-- Takes a step. -/
def step : Step → Action Unit
  | .header => do
    read .header
    modify fun s => s.note (.header s.consumed)
  | .version => do
    let v ← read .version
    modify (note (.version v))
  | .dependencies => do
    let size ← read .dependencies
    modify (note (.dependencies size))
  | .references => do
    let (found, outcome) ← read (.records .references .reference)
    modify (addReferences found)
    conclude outcome
    modify fun s => s.note (.references (s.references.length - 1))
  | .dataSegment => do
    let head ← read .segmentHead
    modify (note (.segment head))
    let bytes ← read (.block head.size)
    modify fun s => { s with data := bytes }
  | .symbols => do
    let (found, outcome) ← read (.records .symbols .symbolRecord)
    modify (addSymbols found)
    conclude outcome
    modify fun s => s.note (.symbols s.symbols.length s.next)
  | .footer => do
    read .footer
    modify fun s => s.note (.footer s.consumed)

/-- What has been read, if no step has failed. -/
def result : Action Object := ExceptT.mk fun s =>
  match s.reader.check with
  | .ok () => (.ok ⟨s.references.toArray, s.symbols, s.data⟩, s)
  | .error fault => (.error fault, s)

/-- The steps that read a whole object file, in order. -/
def pipeline : List Step :=
  [.header, .version, .dependencies, .references, .dataSegment, .symbols, .footer]

/-- Reads a whole object file from where the session stands. -/
def decode : Action Object := do
  pipeline.forM step
  result

end Session

/-- Reads an object file: the object or the fault, and the session at the end. -/
def Object.decode (events : List Event) : Except Fault Object × Session :=
  Session.decode (.ofEvents events)

end ObjectFile
