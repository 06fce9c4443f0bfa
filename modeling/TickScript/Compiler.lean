import TickScript.Emission.File
import TickScript.Graph.Build

/-!
# Compilation

A compiler holds a graph, the user's names for built-in kinds and the emitters for further kinds. It
builds the program of the graph and writes it. Warnings of the build come before those of the
writing.
-/

namespace TickScript

/-- A graph with all that is needed to compile it. -/
structure Compiler where
  graph : Graph
  names : KindNames := .empty
  registry : Emission.Registry := .empty

namespace Compiler

/-- Let a name stand for a built-in kind. -/
def withKindName (compiler : Compiler) (name builtin : String) : Compiler :=
  { compiler with names := compiler.names.define name builtin }

/-- Add an emitter. -/
def withNodeEmitter (compiler : Compiler) (emitter : Emission.NodeEmitter) : Compiler :=
  { compiler with registry := compiler.registry.add emitter }

/-- Add an emitter that is given as data. -/
def withEmitter (compiler : Compiler) (emitter : Emission.Emitter) : Compiler :=
  compiler.withNodeEmitter emitter.toNodeEmitter

/-- The program of the graph with the warnings of the build. -/
def build (compiler : Compiler) : Except Graph.Rejection (Program × List Diagnostic) :=
  compiler.graph.build compiler.names compiler.registry

/-- The script of the graph. -/
def compile (compiler : Compiler) : Except Graph.Rejection Script :=
  match compiler.build with
  | .error rejection => .error rejection
  | .ok (program, warnings) =>
    match Emission.emitProgram program compiler.registry with
    | .error defects => .error ⟨defects, warnings⟩
    | .ok script => .ok { script with warnings := warnings ++ script.warnings }

end Compiler

/-- Why a graph cannot be compiled. -/
inductive CompileError where
  /-- The text of the graph cannot be read. -/
  | unreadable (failure : Settings.Failure)
  /-- The editor's graph is not fit for compilation. -/
  | unusable (reason : String)
  | rejected (rejection : Graph.Rejection)

namespace CompileError

/-- The wording of an error. -/
def message : CompileError → String
  | .unreadable failure => "Failed to parse graph JSON: " ++ failure.message
  | .unusable reason => "Failed to convert graph: Invalid custom data: " ++ reason
  | .rejected rejection =>
    let first :=
      match rejection.defects with
      | [] => "none"
      | defect :: _ => defect.message
    "Graph rejected with " ++ Nat.repr rejection.defects.length ++ " error(s); first: " ++ first

/-- The errors and warnings of a failed compilation. -/
def diagnostics (error : CompileError) : Diagnostics :=
  match error with
  | .rejected rejection => ⟨rejection.defects.map (·.toDiagnostic), rejection.warnings⟩
  | other => ⟨[⟨none, other.message⟩], []⟩

end CompileError

end TickScript
