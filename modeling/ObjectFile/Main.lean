import ObjectFile.Tool
/-!
# The program

Gets hold of the arguments, the setting and the file, runs the command and prints what it
says.
-/

namespace ObjectFile.Command

/-- Why one cannot get hold of a file. -/
def fileFault : IO.Error → Fault
  | .noFileOrDirectory .. => .missingFile
  | .permissionDenied _ code detail =>
    .device .permissionDenied (detail ++ " (os error " ++ Numeral.natural code.toNat ++ ")")
  | other => .device .other (toString other)

/-- The contents of a file, or why one cannot get hold of them. -/
def contentsOf (name : String) : IO (Except Fault (List UInt8)) := do
  try
    let bytes ← IO.FS.readBinFile name
    return .ok bytes.toList
  catch e => return .error (fileFault e)

end ObjectFile.Command

open ObjectFile in
/-- Runs the command. -/
def main (args : List String) : IO UInt32 := do
  let setting ← IO.getEnv "RUST_LOG"
  let contents ← match Tool.options args with
    | .ok options => Command.contentsOf options.file
    | .error _ => pure (.ok [])
  let outcome := Command.run Tool.libraries args setting fun _ => contents
  IO.eprint outcome.stderr
  IO.print outcome.stdout
  return outcome.code.toUInt32
