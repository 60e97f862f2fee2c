import ObjectFile.Varint
import ObjectFile.Envelope
/-!
# Readers

A reader is an input together with the fault that was met first, if one was.  Parsers are
run on a reader through `Reader.attempt`, which is the one place where the rule stands that
the first fault is final: after it nothing is taken from the input any more, and every
further attempt gives that fault again.

`Reader.Request` lists what can be asked of a reader, so that a whole course of requests is
a list and can be carried out by `Reader.serve`.
-/

namespace ObjectFile

/-- An input and the fault that was met first. -/
structure Reader where
  /-- What is left to read. -/
  input : Input
  /-- The first fault. -/
  failure : Option Fault := none
deriving DecidableEq, Repr

namespace Reader

variable {α : Type}

/-- A reader before the first delivery. -/
def ofEvents (events : List Event) : Reader := ⟨⟨events, 0⟩, none⟩

/-- The number of bytes taken. -/
def consumed (r : Reader) : Nat := r.input.consumed

/-- Gives the first fault again, if there was one. -/
def check (r : Reader) : Except Fault Unit :=
  match r.failure with
  | some fault => .error fault
  | none => .ok ()

/-- Runs a parser unless there was a fault; its fault is then the first one. -/
def attempt (p : Parser α) (r : Reader) : Except Fault α × Reader :=
  match r.failure with
  | some fault => (.error fault, r)
  | none =>
    match p.run r.input with
    | (.ok a, i) => (.ok a, ⟨i, none⟩)
    | (.error fault, i) => (.error fault, ⟨i, some fault⟩)

/-- Makes the reader fail, unless it has failed before. -/
def failWith (fault : Fault) (r : Reader) : Reader :=
  { r with failure := some (r.failure.getD fault) }

theorem attempt_of_failure {r : Reader} {fault : Fault} (h : r.failure = some fault)
    (p : Parser α) : r.attempt p = (.error fault, r) := by
  simp [attempt, h]

theorem failWith_of_failure {r : Reader} {fault : Fault} (first : Fault)
    (h : r.failure = some first) : r.failWith fault = r := by
  cases r
  simp_all [failWith]

/-! ## Requests -/

/-- What can be asked of a reader. -/
inductive Request where
  | byte
  | take (need : Nat)
  | block (size : Nat)
  | uvarint
  | varint
  | length (what : String)
  | text
  | check
  | failWith (fault : Fault)
  | header
  | version
  | dependencies
  | footer
deriving DecidableEq, Repr

/-- What a request that succeeds is answered with. -/
inductive Reply where
  | done
  | byte (b : UInt8)
  | bytes (bs : List UInt8)
  | word (w : UInt64)
  | integer (n : Int64)
  | count (n : Nat)
  | text (t : String)
deriving DecidableEq, Repr

/-- Carries out a request.  A reader that is made to fail answers with its first fault. -/
def perform (r : Reader) : Request → Except Fault Reply × Reader
  | .byte => r.attempt (.byte <$> Parser.byte)
  | .take need => r.attempt (.bytes <$> Parser.take need)
  | .block size => r.attempt (.bytes <$> Parser.block size)
  | .uvarint => r.attempt (.word <$> Parser.uvarint)
  | .varint => r.attempt (.integer <$> Parser.varint)
  | .length what => r.attempt (.count <$> Parser.length what)
  | .text => r.attempt (.text <$> Parser.text)
  | .check => (r.check.map fun _ => .done, r)
  | .failWith fault => (.error (r.failure.getD fault), r.failWith fault)
  | .header => r.attempt ((fun _ => .done) <$> Parser.header)
  | .version => r.attempt (.byte <$> Parser.version)
  | .dependencies => r.attempt (.count <$> Parser.dependencies)
  | .footer => r.attempt ((fun _ => .done) <$> Parser.footer)

/-- Carries out requests one after another; every answer comes with the number of bytes
taken by then. -/
def serve (r : Reader) : List Request → List (Except Fault Reply × Nat)
  | [] => []
  | request :: requests =>
    let (reply, t) := r.perform request
    (reply, t.consumed) :: t.serve requests

end Reader

end ObjectFile
