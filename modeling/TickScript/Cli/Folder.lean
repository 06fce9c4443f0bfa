import TickScript.Cli.Run

/-!
# Runs in memory

A folder holds the files of a run together with what was printed. It has no folders inside it, and
nothing outside it can be reached.
-/

namespace TickScript.Cli

open TickScript.Artifact (FileFault)

/-- The files of a folder and the printed text. -/
structure Folder where
  files : Keyed String (List UInt8) := .empty
  out : String := ""
  /-- The lines of standard error. -/
  err : List String := []

namespace Folder

/-- The most bytes of the name of a file. -/
def longestName : Nat := 255

/-- The name of the file to which the steps of a path lead. A step through a name needs a folder of
that name, and there is none; a path that ends in a slash asks for a folder. -/
def follow (files : Keyed String (List UInt8)) : List String → Except FileFault String
  | [] => .error .isFolder
  | step :: steps =>
    if step = "" ∨ step = "." then follow files steps
    else if longestName < step.utf8ByteSize then .error .longName
    else if steps.isEmpty then .ok step
    else if steps.all (· = "") then .error .isFolder
    else if (files.get? step).isSome then .error .notFolder
    else .error .missing

/-- The name of the file to which a path leads. -/
def resolve (folder : Folder) (path : String) : Except FileFault String :=
  let steps := (Text.splitAtMarks '/' path.toList).map String.ofList
  if path = "" then .error .missing
  else if steps.all (["", ".", ".."].contains ·) then .error .isFolder
  else if steps.head? = some "" then .error .missing
  else follow folder.files steps

/-- The text of a file. -/
def readText (folder : Folder) (path : String) : Except FileFault String := do
  let name ← folder.resolve path
  match folder.files.get? name with
  | none => .error .missing
  | some bytes =>
    match Text.decodeText bytes with
    | .ok text => .ok text
    | .error _ => .error (.other "stream did not contain valid UTF-8")

/-- Put bytes into a file. -/
def writeBytes (folder : Folder) (path : String) (bytes : List UInt8) :
    Except FileFault Unit × Folder :=
  match folder.resolve path with
  | .ok name => (.ok (), { folder with files := folder.files.insert name bytes })
  | .error fault => (.error fault, folder)

/-- A folder as the surroundings of a run. -/
def host : Host (StateM Folder) where
  readText := fun path folder => (folder.readText path, folder)
  writeText := fun path text folder => folder.writeBytes path (Text.encodeText text)
  writeBytes := fun path bytes folder => folder.writeBytes path bytes
  out := fun text => modify fun folder => { folder with out := folder.out ++ text }
  err := fun line => modify fun folder => { folder with err := folder.err ++ [line] }
  elapsed := pure "0ns"

end Folder

end TickScript.Cli
