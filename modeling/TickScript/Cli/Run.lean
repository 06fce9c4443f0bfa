import TickScript.Artifact
import TickScript.Cli.Help
import TickScript.Snapshot

/-!
# Runs of the command line

A run reads a snapshot, compiles it, and writes the script and the artifact. What it runs on is a
`Host`, so that the same run can be done on files and in memory. Nothing is written before all
checks have passed.
-/

namespace TickScript.Cli

open TickScript.Artifact (FileFault)

/-- What a run needs from its surroundings. -/
structure Host (m : Type → Type) where
  readText : String → m (Except FileFault String)
  writeText : String → String → m (Except FileFault Unit)
  writeBytes : String → List UInt8 → m (Except FileFault Unit)
  /-- Write to standard output. -/
  out : String → m Unit
  /-- Write a line to standard error. -/
  err : String → m Unit
  /-- The time since the start, as a text. -/
  elapsed : m String

variable {m : Type → Type} [Monad m] (host : Host m)

/-- Report an error and fail. -/
def fail (message : String) : m Nat := do
  host.err ("Error: " ++ message)
  return 1

/-- Report diagnostics behind a label. -/
def report (label : String) (diagnostics : List Diagnostic) : m Unit :=
  diagnostics.forM fun diagnostic => host.err (label ++ ": " ++ diagnostic.render)

/-- Report the warnings and the defects of a graph. -/
def reportRejection (rejection : Graph.Rejection) : m Unit := do
  let diagnostics := (CompileError.rejected rejection).diagnostics
  report host "warning" diagnostics.warnings
  report host "error" diagnostics.errors

/-- Print the program of a graph. -/
def emitProgram (compiler : Compiler) : m Nat := do
  match compiler.build with
  | .ok (program, warnings) =>
    report host "warning" warnings
    host.out ((Program.record.codec.write program).pretty ++ "\n")
    return 0
  | .error rejection =>
    reportRejection host rejection
    return 1

/-- Save the artifact of a script, if one is asked for. -/
def saveArtifact (options : Options) (script : Script) : m Nat := do
  match options.artifact with
  | none => return 0
  | some path =>
    match ← host.writeBytes path (Artifact.encode script) with
    | .error fault => fail host (Artifact.Error.notCreated path fault).message
    | .ok () =>
      host.err s!"Saved artifact to '{path}'"
      return 0

/-- Write a script and its artifact. -/
def writeScript (graphPath : String) (options : Options) (script : Script) : m Nat := do
  match options.output with
  | none =>
    host.out script.source
    saveArtifact host options script
  | some path =>
    match ← host.writeText path script.source with
    | .error fault =>
      let reason := fault.message
      fail host s!"Could not write '{path}': {reason}"
    | .ok () =>
      let time ← host.elapsed
      host.err s!"Compiled '{graphPath}' -> '{path}' in {time}"
      saveArtifact host options script

/-- Compile a graph and write the result. -/
def compileGraph (graphPath : String) (options : Options) (compiler : Compiler) : m Nat := do
  match compiler.compile with
  | .error rejection =>
    reportRejection host rejection
    fail host (CompileError.rejected rejection).message
  | .ok script =>
    report host "warning" script.warnings
    if options.denyWarnings && !script.warnings.isEmpty then
      let count := script.warnings.length
      fail host s!"{count} warning(s) with --deny-warnings"
    else writeScript host graphPath options script

/-- Do what the options ask for. The result is the exit code. -/
def run (graphPath : String) (options : Options) : m Nat := do
  match ← host.readText graphPath with
  | .error fault =>
    let reason := fault.message
    fail host s!"Could not read '{graphPath}': {reason}"
  | .ok text =>
    match Compiler.ofText text with
    | .error error => fail host error.message
    | .ok compiler =>
      if options.emitIr then emitProgram host compiler
      else compileGraph host graphPath options compiler

/-- Answer a command line that compiles nothing. -/
def runDetour (detour : Detour) : m Nat := do
  match detour with
  | .error error =>
    host.err ("error: " ++ error.message)
    return 2
  | .help full =>
    host.out (if full then Help.manual else Help.summary)
    return 0
  | .version =>
    host.out Help.version
    return 0

/-- Do what a list of arguments asks for. -/
def runArguments (arguments : List String) : m Nat := do
  match Options.ofArguments arguments with
  | .error detour => runDetour host detour
  | .ok options => run host (options.graphPath.getD "") options

end TickScript.Cli
