import ObjectFile.Command
import ObjectFile.Container
import ObjectFile.Container.Canonical
import ObjectFile.Document
import ObjectFile.Envelope
import ObjectFile.Fault
import ObjectFile.Input
import ObjectFile.Journal
import ObjectFile.Json
import ObjectFile.Main
import ObjectFile.Numeral
import ObjectFile.Object
import ObjectFile.Parser
import ObjectFile.Printed
import ObjectFile.Proofs.Acceptance
import ObjectFile.Proofs.Account
import ObjectFile.Proofs.Answers
import ObjectFile.Proofs.Breakdown
import ObjectFile.Proofs.Bytewise
import ObjectFile.Proofs.Canonical
import ObjectFile.Proofs.Contents
import ObjectFile.Proofs.Continuation
import ObjectFile.Proofs.Dangling
import ObjectFile.Proofs.Delivery
import ObjectFile.Proofs.Document
import ObjectFile.Proofs.Envelope
import ObjectFile.Proofs.Evidence
import ObjectFile.Proofs.Findings
import ObjectFile.Proofs.FirstFault
import ObjectFile.Proofs.Grammar
import ObjectFile.Proofs.Hexadecimal
import ObjectFile.Proofs.Journal
import ObjectFile.Proofs.Layout
import ObjectFile.Proofs.Leading
import ObjectFile.Proofs.Lines
import ObjectFile.Proofs.Lookup
import ObjectFile.Proofs.Loop
import ObjectFile.Proofs.Magnitude
import ObjectFile.Proofs.Number
import ObjectFile.Proofs.Numeral
import ObjectFile.Proofs.Offsets
import ObjectFile.Proofs.Online
import ObjectFile.Proofs.Outcome
import ObjectFile.Proofs.Overflow
import ObjectFile.Proofs.Pipeline
import ObjectFile.Proofs.Placement
import ObjectFile.Proofs.Prefix
import ObjectFile.Proofs.Printing
import ObjectFile.Proofs.Record
import ObjectFile.Proofs.Rejection
import ObjectFile.Proofs.Requests
import ObjectFile.Proofs.RoundTrip
import ObjectFile.Proofs.Rounds
import ObjectFile.Proofs.Rows
import ObjectFile.Proofs.Sections
import ObjectFile.Proofs.Selection
import ObjectFile.Proofs.Signal
import ObjectFile.Proofs.Slice
import ObjectFile.Proofs.Stream
import ObjectFile.Proofs.Texts
import ObjectFile.Proofs.Tiling
import ObjectFile.Proofs.Weight
import ObjectFile.Proofs.Wording
import ObjectFile.Proofs.Writing
import ObjectFile.Reader
import ObjectFile.Record
import ObjectFile.Record.Parser
import ObjectFile.Report
import ObjectFile.Session
import ObjectFile.Symbol
import ObjectFile.Table
import ObjectFile.Tool
import ObjectFile.Tool.Arguments
import ObjectFile.Tool.CharSet
import ObjectFile.Tool.Character
import ObjectFile.Tool.Character.Case
import ObjectFile.Tool.Character.Digit
import ObjectFile.Tool.Character.Word
import ObjectFile.Tool.LogFilter
import ObjectFile.Tool.Pattern
import ObjectFile.Tool.Pattern.Expr
import ObjectFile.Tool.Pattern.Frequency
import ObjectFile.Tool.Pattern.Gap
import ObjectFile.Tool.Pattern.Machine
import ObjectFile.Tool.Pattern.Parser
import ObjectFile.Tool.Pattern.Size
import ObjectFile.Tool.Pattern.Tree
import ObjectFile.Tool.Pattern.Words
import ObjectFile.Utf8
import ObjectFile.Varint
