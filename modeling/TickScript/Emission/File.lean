import TickScript.Emission.Dispatch
import TickScript.Program

/-!
# Assembled files

A file has a head line, the imports, the main function and one function for each task. `emitProgram`
checks a program and writes it.
-/

namespace TickScript

/-- A compiled program. -/
structure Script where
  fileId : String
  source : String
  warnings : List Diagnostic
  deriving DecidableEq

open TickScript.Settings in
/-- How a compiled program is read and written. -/
def Script.record : Record Script where
  name := "CompiledProgram"
  fields := [
    .required "file_id" .text (·.fileId) fun record fileId => { record with fileId },
    .required "source" .text (·.source) fun record source => { record with source },
    .required "warnings" (.list Diagnostic.record.codec) (·.warnings)
      fun record warnings => { record with warnings }]
  blank := ⟨"", "", []⟩

namespace Emission

/-- A function of the file. -/
structure Function where
  header : String
  /-- Comments before the body. -/
  preamble : List String
  body : List Line

namespace Function

/-- The comment in place of an empty body. -/
def emptyBody : String := "// no statements"

/-- Put a line one level deeper. -/
def indentLine (line : Line) : Line := { line with indent := indentStep + line.indent }

/-- The lines of a function. -/
def lines (function : Function) : List Line :=
  let body := if function.body.isEmpty then [.flush emptyBody] else function.body
  [.flush (function.header ++ " \x7b")] ++
    (function.preamble.map Line.flush ++ body).map indentLine ++ [.flush "\x7d"]

end Function

/-- One parameter of a task in a comment. -/
def paramText (param : Kind.TaskParam) : String :=
  let name := Text.propertyKey param.key ++ ": " ++ param.type
  match param.default with
  | some default => name ++ " = " ++ default.render
  | none => name

/-- The comment that lists the parameters of a task, if it has any. -/
def paramComment (task : Task) : List String :=
  if task.params.isEmpty then []
  else ["// params: " ++ ", ".intercalate (task.params.map paramText)]

/-- The context after a walk from an id. -/
def runWalk (setting : Setting) (context : Context) (entry : String) : Context :=
  let (_, state) := (Walk.walk setting entry).run { context }
  state.context

/-- The context after the body of a task. -/
def taskContext (setting : Setting) (parent : Context) (task : Task) : Context :=
  match task.entry with
  | some entry => runWalk setting parent.child entry
  | none =>
    let name := task.name
    parent.child.warn task.defineNode s!"task '{name}' has an empty body"

/-- The function of a task. -/
def taskFunction (task : Task) (body : List Line) : Function where
  header := "function " ++ Text.taskIdentifier task.name ++ "(args)"
  preamble := paramComment task
  body := body

/-- Write tasks one after the other, each knowing the imports of those before it. -/
def emitTasks (setting : Setting) (context : Context) : List Task → List Function × Context
  | [] => ([], context)
  | task :: tasks =>
    let child := taskContext setting context task
    let (functions, context) := emitTasks setting (context.absorb child) tasks
    (taskFunction task child.lines :: functions, context)

/-- The main function. -/
def mainFunction (body : List Line) : Function where
  header := "export function run(creep)"
  preamble := []
  body := body

/-- The line at the head of a file. -/
def headLine (fileId : String) : Line :=
  .flush ("// @generated by sakusen from graph " ++ Text.quote fileId ++ " -- do not edit")

/-- The empty line. -/
def emptyLine : Line := .flush ""

/-- The import statements with an empty line after them, if there are any. -/
def importLines (imports : Imports) : List Line :=
  if imports.isEmpty then [] else imports.lines.map Line.flush ++ [emptyLine]

/-- The functions and the final context of a program. -/
def functions (program : Program) (registry : Registry) : Function × List Function × Context :=
  let setting : Setting := ⟨program.nodes, registry⟩
  let context := runWalk setting {} program.entry
  let main := mainFunction context.lines
  let (tasks, context) := emitTasks setting { context with lines := [] } program.tasks
  (main, tasks, context)

/-- The lines of a file. -/
def fileLines (fileId : String) (imports : Imports) (main : Function) (tasks : List Function) :
    List Line :=
  [headLine fileId, emptyLine] ++ importLines imports ++ main.lines ++
    tasks.flatMap fun task => emptyLine :: task.lines

/-- Lines with a line feed after each. -/
def joinLines (lines : List Line) : String :=
  String.join (lines.map fun line => line.render ++ "\n")

/-- Write a program that has been checked. -/
def assemble (program : Program) (registry : Registry) : Script :=
  let (main, tasks, context) := functions program registry
  { fileId := program.fileId
    source := joinLines (fileLines program.fileId context.imports main tasks)
    warnings := context.diagnostics.warnings }

/-- Check a program and write it. -/
def emitProgram (program : Program) (registry : Registry) : Except (List Defect) Script :=
  match program.defects with
  | [] => .ok (assemble program registry)
  | defects => .error defects

end Emission

end TickScript
