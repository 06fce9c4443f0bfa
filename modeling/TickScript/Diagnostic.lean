import TickScript.Settings.Record

/-!
# Diagnostics

A diagnostic is a message about a graph, tied to a node or to none. A compilation collects errors,
which prevent a result, and warnings, which do not.
-/

namespace TickScript

open TickScript.Settings

/-- A message about a graph. -/
structure Diagnostic where
  nodeId : Option String
  message : String
  deriving DecidableEq

namespace Diagnostic

/-- The message on one line, after the node that it is about. -/
def render (diagnostic : Diagnostic) : String :=
  match diagnostic.nodeId with
  | some id => "[" ++ id ++ "] " ++ diagnostic.message
  | none => diagnostic.message

/-- How a diagnostic is read and written. -/
def record : Record Diagnostic where
  name := "Diagnostic"
  fields := [
    .required "node_id" (.optional .text) (·.nodeId) fun record nodeId => { record with nodeId },
    .required "message" .text (·.message) fun record message => { record with message }]
  blank := ⟨none, ""⟩

end Diagnostic

/-- The errors and warnings of a compilation, each in the order in which they were found. -/
structure Diagnostics where
  errors : List Diagnostic := []
  warnings : List Diagnostic := []
  deriving DecidableEq

namespace Diagnostics

/-- Add a warning. -/
def warn (diagnostics : Diagnostics) (nodeId : Option String) (message : String) : Diagnostics :=
  { diagnostics with warnings := diagnostics.warnings ++ [⟨nodeId, message⟩] }

/-- Add an error. -/
def error (diagnostics : Diagnostics) (nodeId : Option String) (message : String) : Diagnostics :=
  { diagnostics with errors := diagnostics.errors ++ [⟨nodeId, message⟩] }

/-- Whether there are errors. -/
def hasErrors (diagnostics : Diagnostics) : Bool := !diagnostics.errors.isEmpty

/-- Whether there is nothing to report. -/
def isEmpty (diagnostics : Diagnostics) : Bool :=
  diagnostics.errors.isEmpty && diagnostics.warnings.isEmpty

/-- All diagnostics of one collection, then all of another. -/
def append (diagnostics other : Diagnostics) : Diagnostics :=
  ⟨diagnostics.errors ++ other.errors, diagnostics.warnings ++ other.warnings⟩

instance : Append Diagnostics := ⟨append⟩

/-- How diagnostics are read and written. -/
def record : Record Diagnostics where
  name := "Diagnostics"
  fields := [
    .required "errors" (.list Diagnostic.record.codec) (·.errors)
      fun record errors => { record with errors },
    .required "warnings" (.list Diagnostic.record.codec) (·.warnings)
      fun record warnings => { record with warnings }]
  blank := {}

end Diagnostics

end TickScript
