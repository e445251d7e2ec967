import ScriptToC.Command
import ScriptToC.Json.Reader
import ScriptToC.Source.Tree

/-!
# The program

Runs the command on the files of the machine. What the front end says about the source file is read
from standard input, as JSON.
-/

set_option autoImplicit false

namespace ScriptToC

/-- The code by which the machine says that a folder stands where a file is expected. -/
def folderCode : UInt32 := 21

/-- The reason for which the machine refuses a file. -/
def reasonOf (cause : IO.Error) : IoError :=
  match cause with
  | .noFileOrDirectory .. => .notFound
  | .inappropriateType _ code _ => if code = folderCode then .isFolder else .notFolder
  | other => .other (toString other)

/-- Runs an action on files and gives the reason if the machine refuses it. -/
def attempt {α : Type} (action : IO α) : IO (Except IoError α) := do
  match ← action.toBaseIO with
  | .ok result => return .ok result
  | .error cause => return .error (reasonOf cause)

/-- The files of the machine. -/
def machineDisk : Disk IO where
  isPresent path := return (← attempt (IO.FS.realPath path)).isOk
  readText path := do
    match ← attempt (IO.FS.readBinFile path) with
    | .error cause => return .error cause
    | .ok bytes =>
      match String.fromUTF8? bytes with
      | some text => return .ok text
      | none => return .error .invalidText
  writeText path text := attempt (IO.FS.writeFile path text)

/-- The report of the front end on standard input. -/
def reportFromInput (_ : String) : IO Source.Report := do
  let text ← (← IO.getStdin).readToEnd
  match (Json.read text).bind Source.Tree.report with
  | some report => return report
  | none => throw (IO.userError "the report of the front end cannot be read")

end ScriptToC

/-- Runs the command with its arguments. -/
def main (args : List String) : IO UInt32 := do
  let outcome ← ScriptToC.Command.run ScriptToC.machineDisk ScriptToC.reportFromInput args
  IO.print outcome.stdout
  IO.eprint outcome.stderr
  return outcome.code.toUInt32
