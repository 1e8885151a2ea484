import Ventilation.Command.Run
import Ventilation.Database.Catalog

/-!
The command line program: it reads the two files that a command line names, runs it, and writes
what it says.
-/

set_option autoImplicit false

namespace Ventilation

/-- The bytes of a file that is there and can be read. -/
def bytesOf? (path : String) : IO (Option ByteArray) := do
  try
    return some (← IO.FS.readBinFile path)
  catch _ =>
    return none

/-- The files that a command line names, and no others. -/
def filesOf (args : List String) : IO Command.Files := do
  match Command.Invocation.ofArguments? args with
  | none => return ⟨fun _ => none, fun _ => none⟩
  | some i => do
    let catalog := (← bytesOf? i.database).map Database.catalog
    let config ← match i.config with
      | some path => bytesOf? path
      | none => pure none
    return ⟨fun _ => catalog, fun _ => config.bind String.fromUTF8?⟩

end Ventilation

def main (args : List String) : IO UInt32 := do
  let files ← Ventilation.filesOf args
  let outcome := Ventilation.Command.run files args
  (← IO.getStdout).putStr outcome.stdout
  (← IO.getStderr).putStr outcome.stderr
  return UInt32.ofNat outcome.code
