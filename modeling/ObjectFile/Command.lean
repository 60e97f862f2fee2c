import ObjectFile.Document
import ObjectFile.Session
/-!
# The command

The command reads one object file and prints what it defines, unless something goes wrong.
A pattern that cannot be read ends the run before the file is looked at; a fault in the file
ends it before anything is printed.  Once printing has begun there is one thing left that can
go wrong, a cell of a table that needs too many blanks: then the run breaks off.  The log goes
to the error output.

A run is a function of the arguments, the setting of the log and the contents of files.  What
the arguments mean, which names a pattern stands for and which lines the log shows is for
others to say (`Command.Libraries`).
-/

namespace ObjectFile

/-- The fault of a file that is not there. -/
def Fault.missingFile : Fault := .device .notFound "No such file or directory (os error 2)"

/-- Reads the object file of a name with these contents, if one can get hold of them: the
object or the fault, and the journal.  An empty file is read like any other but is not
entered in the journal. -/
def Object.load (name : String) (contents : Except Fault (List UInt8)) :
    Except Fault Object × List Journal.Entry :=
  match contents with
  | .error fault => (.error fault, [])
  | .ok bytes =>
    let (outcome, s) := Object.decode [.data bytes]
    let opened := if bytes.isEmpty then [] else [.opened name bytes.length]
    (outcome, opened ++ s.journal)

namespace Command

/-- What the command is asked to print, and of what. -/
structure Options where
  /-- The name of the file. -/
  file : String
  /-- Lists relocations too. -/
  relocations : Bool
  /-- The pattern that names have to match. -/
  pattern : Option String
  /-- Prints a document instead of tables. -/
  json : Bool
  /-- Shows more of the journal. -/
  debug : Bool
deriving DecidableEq, Repr

/-- What a run comes to. -/
structure Outcome where
  /-- The exit code. -/
  code : Nat
  /-- What is printed. -/
  stdout : String
  /-- What is printed to the error output. -/
  stderr : String
deriving DecidableEq, Repr

/-- What the command leaves to others. -/
structure Libraries where
  /-- What the arguments ask for, or what a run comes to that ends with them: if they are
  misused, or ask for help or for the version. -/
  options : List String → Except Outcome Options
  /-- Starts the log at a level, unless there is a setting that says otherwise: the entries
  that are shown, by their levels, the parts that tell them and their wordings, or why the
  log cannot be started. -/
  startLog : String → Option String → Except String (Journal.Level → String → String → Bool)
  /-- The names that a pattern matches, or why it is no pattern. -/
  compile : String → Except String (String → Bool)
  /-- What is said of a run that breaks off. -/
  collapse : String

/-- The level of the log unless a setting says otherwise. -/
def defaultLevel (debug : Bool) : Journal.Level := if debug then .debug else .warn

/-- The lines of the journal that are shown. -/
def log (shows : Journal.Level → String → String → Bool) (entries : List Journal.Entry) : String :=
  String.join ((entries.filter fun e => shows e.level e.target e.message).map (·.line ++ "\n"))

/-- A text of which every line but the first is indented. -/
def indent (text : String) : String :=
  String.ofList (text.toList.flatMap fun c => if c = '\n' then "\n    ".toList else [c])

/-- The complaint about what could not be done, and why. -/
def complaint (what why : String) : String :=
  "Error: " ++ what ++ "\n\nCaused by:\n    " ++ indent why ++ "\n"

/-- Prints what was asked for of an object. -/
def print (o : Object) (options : Options) (filter : Option (String → Bool)) : Printed :=
  if options.json then .complete ((o.document filter).pretty ++ "\n")
  else o.printReport filter options.relocations

variable (libraries : Libraries)

/-- Shows a file. -/
def display (options : Options) (setting : Option String)
    (contents : Except Fault (List UInt8)) : Outcome :=
  match libraries.startLog (defaultLevel options.debug).label setting with
  | .error why => ⟨1, "", complaint "failed to start logger" why⟩
  | .ok shows =>
    match options.pattern.mapM libraries.compile with
    | .error why => ⟨1, "", complaint "invalid --filter pattern" why⟩
    | .ok filter =>
      match Object.load options.file contents with
      | (.error fault, journal) =>
        ⟨1, "", log shows journal ++
          complaint ("failed to parse goobj file " ++ options.file) fault.message⟩
      | (.ok o, journal) =>
        let totals := .totals o.symbols.length o.references.size o.data.length
        let logged := log shows (journal ++ [totals])
        match print o options filter with
        | .complete text => ⟨0, text, logged⟩
        | .broken text => ⟨101, text, logged ++ libraries.collapse⟩

/-- Runs the command with the given arguments and the given setting of the log, where `files`
says what the file of a name holds or why one cannot get hold of it. -/
def run (args : List String) (setting : Option String)
    (files : String → Except Fault (List UInt8)) : Outcome :=
  match libraries.options args with
  | .error outcome => outcome
  | .ok options => display libraries options setting (files options.file)

end Command

end ObjectFile
