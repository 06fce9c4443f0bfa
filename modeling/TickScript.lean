import TickScript.Artifact
import TickScript.Cli.Folder
import TickScript.Cli.Help
import TickScript.Cli.Options
import TickScript.Cli.Run
import TickScript.Compiler
import TickScript.Defect
import TickScript.Diagnostic
import TickScript.Emission.Action
import TickScript.Emission.Context
import TickScript.Emission.Dispatch
import TickScript.Emission.File
import TickScript.Emission.Flow
import TickScript.Emission.Imports
import TickScript.Emission.Joins
import TickScript.Emission.Memory
import TickScript.Emission.Query
import TickScript.Emission.Routine
import TickScript.Emission.Spawn
import TickScript.Emission.Step
import TickScript.Emission.Structure
import TickScript.Emission.Task
import TickScript.Emission.Walk
import TickScript.Graph
import TickScript.Graph.Build
import TickScript.Json.Draft
import TickScript.Json.Fault
import TickScript.Json.Numeral
import TickScript.Json.Printer
import TickScript.Json.Value
import TickScript.Keyed
import TickScript.Kind
import TickScript.Kind.Action
import TickScript.Kind.Flow
import TickScript.Kind.Memory
import TickScript.Kind.Query
import TickScript.Kind.Structure
import TickScript.Kind.Task
import TickScript.Literal
import TickScript.Main
import TickScript.Node
import TickScript.Number.Binary64
import TickScript.Number.DecimalText
import TickScript.Number.Shortest
import TickScript.Program
import TickScript.Settings.Codec
import TickScript.Settings.Failure
import TickScript.Settings.Record
import TickScript.Settings.TextRecord
import TickScript.Snapshot
import TickScript.Text.Blank
import TickScript.Text.Identifier
import TickScript.Text.Path
import TickScript.Text.Place
import TickScript.Text.Quoted
import TickScript.Text.Shown
import TickScript.Text.Unprintable
import TickScript.Text.Utf8
import TickScript.Proofs.Keyed
import TickScript.Proofs.Program
import TickScript.Proofs.Walk.Course
import TickScript.Proofs.Walk.Progress
import TickScript.Proofs.Walk.Reach
import TickScript.Proofs.Walk.Hoist
import TickScript.Proofs.Walk.Agreement
import TickScript.Proofs.Graph.WellFormed
import TickScript.Proofs.Graph.Acceptance
import TickScript.Proofs.Graph.KindNames
import TickScript.Proofs.Graph.Kept
import TickScript.Proofs.Graph.Reports
import TickScript.Proofs.Graph.Meaning
import TickScript.Proofs.Graph.Wiring
import TickScript.Proofs.Graph.Closed
import TickScript.Proofs.Graph.Order
import TickScript.Proofs.Text.Identifier
import TickScript.Proofs.Emission.Scope
import TickScript.Proofs.Emission.Composition
import TickScript.Proofs.Emission.Statements
import TickScript.Proofs.Emission.Values
import TickScript.Proofs.Emission.Omitted
import TickScript.Proofs.Emission.OpenInputs
import TickScript.Proofs.Emission.Calls
import TickScript.Proofs.Emission.Imports
import TickScript.Proofs.Emission.Names
import TickScript.Proofs.Emission.Coherence
import TickScript.Proofs.Emission.Parallel
import TickScript.Proofs.Emission.Library
import TickScript.Proofs.Emission.Lockstep
import TickScript.Proofs.Emission.Tasks
import TickScript.Proofs.Emission.Reachable
import TickScript.Proofs.Emission.Aliases
import TickScript.Proofs.Emission.Renaming
import TickScript.Proofs.Text.Brackets
import TickScript.Proofs.Text.Utf8
import TickScript.Proofs.Artifact
import TickScript.Proofs.Text.Discipline
import TickScript.Proofs.Emission.Tidy
import TickScript.Proofs.Emission.TidyStatements
import TickScript.Proofs.Emission.TidyWalks
import TickScript.Proofs.Emission.Balance
import TickScript.Proofs.Json.Proper
import TickScript.Proofs.Settings.Stable
import TickScript.Proofs.Settings.Fields
import TickScript.Proofs.Settings.Kinds
import TickScript.Proofs.Settings.Shapes
import TickScript.Proofs.Graph.Dump
import TickScript.Proofs.Cli.Denial
import TickScript.Proofs.Graph.UsedEmitters
import TickScript.Proofs.Walk.Joins
import TickScript.Proofs.Walk.Tour
import TickScript.Proofs.Walk.Evolution
import TickScript.Proofs.Walk.Constructs
import TickScript.Proofs.Json.Scanned
import TickScript.Proofs.Json.Printed
import TickScript.Proofs.Settings.TextRecords
import TickScript.Proofs.Snapshot
import TickScript.Proofs.Walk.Depth
import TickScript.Proofs.Walk.Restored
import TickScript.Proofs.Emission.Recorded
import TickScript.Proofs.Walk.Phases
import TickScript.Proofs.Walk.IdleSlots
import TickScript.Proofs.Walk.Moments
import TickScript.Proofs.Emission.Entry
import TickScript.Proofs.Graph.TaskCalls
import TickScript.Proofs.Emission.Receivers
import TickScript.Proofs.Emission.Evolution
import TickScript.Proofs.Emission.Temporaries
import TickScript.Proofs.Walk.Counters
import TickScript.Proofs.Text.Delimited
import TickScript.Proofs.Text.Paths
import TickScript.Proofs.Text.Lines
import TickScript.Proofs.Number
import TickScript.Proofs.Literal
import TickScript.Proofs.Emission.Locations
import TickScript.Proofs.Emission.Lines
import TickScript.Proofs.Memory.Store
import TickScript.Proofs.Memory.Statements
import TickScript.Proofs.Memory.Emitted
import TickScript.Proofs.Memory.WriteRead
import TickScript.Proofs.Emission.Merging
import TickScript.Proofs.Json.Normal
import TickScript.Proofs.Script.Expression
import TickScript.Proofs.Emission.Gates
import TickScript.Proofs.Emission.Presets
import TickScript.Proofs.Emission.Numbering
