import TickScript.Cli.Run

/-!
# The program

Runs the command line on the files of the system.
-/

namespace TickScript

open TickScript.Artifact (FileFault)

/-- A failed action on a file. -/
def Cli.fileFault : IO.Error → FileFault
  | .noFileOrDirectory .. => .missing
  | .inappropriateType _ code _ => if code = 21 then .isFolder else .notFolder
  | error => .other (toString error)

/-- Do an action on a file. -/
def Cli.attempt {α : Type} (action : IO α) : IO (Except FileFault α) := do
  try
    return .ok (← action)
  catch error => return .error (Cli.fileFault error)

/-- The system as the surroundings of a run. -/
def Cli.system (start : Nat) : Cli.Host IO where
  readText := fun path => Cli.attempt (IO.FS.readFile path)
  writeText := fun path text => Cli.attempt (IO.FS.writeFile path text)
  writeBytes := fun path bytes => Cli.attempt (IO.FS.writeBinFile path ⟨bytes.toArray⟩)
  out := fun text => IO.print text
  err := fun line => IO.eprintln line
  elapsed := do
    let now ← IO.monoMsNow
    return toString (now - start) ++ "ms"

end TickScript

/-- Compile the graph that the arguments name. -/
def main (arguments : List String) : IO UInt32 := do
  let start ← IO.monoMsNow
  let code ← TickScript.Cli.runArguments (TickScript.Cli.system start) arguments
  return code.toUInt32
