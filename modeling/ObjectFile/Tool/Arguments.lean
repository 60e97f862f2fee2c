import ObjectFile.Command
/-!
# The arguments of the tool

What the command is asked to do, and how the arguments say it.  Arguments are looked at one
after another; to ask for help or for the version ends the looking at once.  Options are
letters behind one hyphen, of which several may share it, or words behind two; after a lone
`--` there are no options any more.  The one option with a value takes it from the rest of
its own argument, where an equals sign may stand between, or else from the next argument,
which then must not look like an option.  No option may be given twice, and there has to be
exactly one file.
-/

namespace ObjectFile.Tool

open Command (Options)

/-- What the command is asked to do. -/
inductive Request where
  | help
  | version
  | display (options : Options)
deriving DecidableEq, Repr

/-- Why the arguments ask for nothing. -/
inductive Misuse where
  | unknownOption (given : String)
  | repeatedOption (name : String)
  | missingValue (name : String)
  | unexpectedValue (name : String)
  | unexpectedArgument (given : String)
  | emptyFile
  | missingFile
deriving DecidableEq, Repr

/-- The wording of a misuse. -/
def Misuse.message : Misuse → String
  | unknownOption given => "unexpected argument '" ++ given ++ "' found"
  | repeatedOption name => "the argument '--" ++ name ++ "' cannot be used multiple times"
  | missingValue name => "a value is required for '--" ++ name ++ "' but none was supplied"
  | unexpectedValue name => "unexpected value for '--" ++ name ++ "' found; no more were expected"
  | unexpectedArgument given => "unexpected argument '" ++ given ++ "' found"
  | emptyFile => "a value is required for '<FILE>' but none was supplied"
  | missingFile => "the following required arguments were not provided: <FILE>"

/-- The options without a value. -/
inductive Flag where
  | relocs
  | json
  | debug
  | help
  | version
deriving DecidableEq, Repr

namespace Flag

/-- Every option without a value. -/
def all : List Flag := [relocs, json, debug, help, version]

/-- The word for an option. -/
def word : Flag → String
  | relocs => "relocs"
  | json => "json"
  | debug => "debug"
  | help => "help"
  | version => "version"

/-- The letter for an option. -/
def letter : Flag → Char
  | relocs => 'r'
  | json => 'j'
  | debug => 'd'
  | help => 'h'
  | version => 'V'

end Flag

/-- The word for the option with a value. -/
def filterWord : String := "filter"

/-- The letter for the option with a value. -/
def filterLetter : Char := 'f'

/-- What the arguments have said so far. -/
structure Draft where
  file : Option String := none
  relocations : Bool := false
  pattern : Option String := none
  json : Bool := false
  debug : Bool := false

/-- What one argument comes to. -/
inductive Progress where
  /-- Go on. -/
  | more (d : Draft)
  /-- The value of an option is still to come. -/
  | value (d : Draft)
  /-- Nothing more has to be looked at. -/
  | done (r : Request)

namespace Draft

/-- Sets an option without a value. -/
def flag (d : Draft) (f : Flag) : Except Misuse Progress :=
  match f with
  | .relocs =>
    if d.relocations then .error (.repeatedOption f.word)
    else .ok (.more { d with relocations := true })
  | .json => if d.json then .error (.repeatedOption f.word) else .ok (.more { d with json := true })
  | .debug =>
    if d.debug then .error (.repeatedOption f.word) else .ok (.more { d with debug := true })
  | .help => .ok (.done .help)
  | .version => .ok (.done .version)

/-- Sets the option with a value. -/
def setPattern (d : Draft) (text : String) : Except Misuse Draft :=
  if d.pattern.isSome then .error (.repeatedOption filterWord)
  else .ok { d with pattern := some text }

/-- Sets the file. -/
def setFile (d : Draft) (name : String) : Except Misuse Draft :=
  if d.file.isSome then .error (.unexpectedArgument name)
  else if name = "" then .error .emptyFile
  else .ok { d with file := some name }

/-- Letters behind one hyphen. -/
def letters (d : Draft) : List Char → Except Misuse Progress
  | [] => .ok (.more d)
  | c :: cs =>
    if c = filterLetter then
      match cs with
      | [] => .ok (.value d)
      | '=' :: text => (d.setPattern (String.ofList text)).map .more
      | text => (d.setPattern (String.ofList text)).map .more
    else match Flag.all.find? (·.letter = c) with
      | none => .error (.unknownOption (String.ofList ['-', c]))
      | some f =>
        match d.flag f with
        | .ok (.more d) => d.letters cs
        | other => other

/-- A word behind two hyphens, with what an equals sign in it separates. -/
def word (d : Draft) (cs : List Char) : Except Misuse Progress :=
  let name := String.ofList (cs.takeWhile (· ≠ '='))
  let attached := match cs.dropWhile (· ≠ '=') with
    | [] => none
    | _ :: text => some (String.ofList text)
  if name = filterWord then
    match attached with
    | none => .ok (.value d)
    | some text => (d.setPattern text).map .more
  else match Flag.all.find? (·.word = name) with
    | none => .error (.unknownOption ("--" ++ name))
    | some f => if attached.isSome then .error (.unexpectedValue name) else d.flag f

/-- What has been said in the end. -/
def finish (d : Draft) : Except Misuse Request :=
  match d.file with
  | none => .error .missingFile
  | some file =>
    .ok (.display ⟨file, d.relocations, d.pattern, d.json, d.debug⟩)

end Draft

/-- What the next argument may be. -/
inductive Expecting where
  | anything
  | value
  | file
deriving DecidableEq, Repr

/-- Looks at the arguments that are left. -/
def parseFrom (d : Draft) : Expecting → List String → Except Misuse Request
  | .value, [] => .error (.missingValue filterWord)
  | _, [] => d.finish
  | .file, arg :: args => do
    let d ← d.setFile arg
    parseFrom d .file args
  | .value, arg :: args =>
    match arg.toList with
    | '-' :: _ :: _ => .error (.missingValue filterWord)
    | _ => do
      let d ← d.setPattern arg
      parseFrom d .anything args
  | .anything, arg :: args => do
    let progress ←
      match arg.toList with
      | ['-', '-'] => return ← parseFrom d .file args
      | '-' :: '-' :: cs => d.word cs
      | '-' :: c :: cs => d.letters (c :: cs)
      | _ => (d.setFile arg).map .more
    match progress with
    | .more d => parseFrom d .anything args
    | .value d => parseFrom d .value args
    | .done request => return request

/-- What the arguments ask for. -/
def parse (args : List String) : Except Misuse Request := parseFrom {} .anything args

end ObjectFile.Tool
