import TickScript.Diagnostic
import TickScript.Emission.Imports
import TickScript.Node

/-!
# Contexts of emission

A context is the state of one function while it is written: its lines, the current indentation, a
counter for temporary names, the expressions that hold the values of nodes, the imports and the
warnings. It also remembers which names and aliases were given out, where values were recorded and
asked for, what stood in for inputs that nothing was given for, and which lines were taken away; no
action reads these. `Emit` is the monad of actions on a context.
-/

namespace TickScript.Emission

/-- A line of a script before it is put behind its spaces. -/
structure Line where
  indent : Nat
  text : String
  deriving DecidableEq

/-- A line that begins without spaces. -/
def Line.flush (text : String) : Line := ⟨0, text⟩

/-- The line with its spaces. -/
def Line.render (line : Line) : String :=
  String.ofList (List.replicate line.indent ' ') ++ line.text

/-- How many spaces a block adds. -/
def indentStep : Nat := 2

/-- The expression for an input that cannot be resolved. -/
def unresolved : String := "undefined"

/-- The acting unit in the main function. -/
def mainActor : String := "creep"

/-- The acting unit in a task, which gets a single object of arguments. -/
def taskActor : String := "args.creep"

/-- A point in a function while it is written. -/
structure Site where
  /-- How many lines stand before it. -/
  line : Nat
  /-- The indentation of a line that is written there. -/
  indent : Nat
  deriving DecidableEq

/-- What is done with the values of nodes. -/
inductive Access where
  /-- An expression was recorded as the value of a node. -/
  | recorded (nodeId expr : String) (site : Site)
  /-- A node asked for the value of another one, which was the given expression or unknown. -/
  | resolved (consumer source port : String) (found : Option String) (site : Site)
  deriving DecidableEq

/-- A literal that was taken for an input of a node, for want of anything better. -/
structure StandIn where
  nodeId : String
  input : String
  literal : Literal

/-- The state of one function while it is written. -/
structure Context where
  lines : List Line := []
  /-- The lines that were taken away, in the order in which they were written. -/
  taken : List Line := []
  indent : Nat := 0
  /-- How many temporary names have been given out. -/
  temps : Nat := 0
  /-- The temporary names themselves, the latest first. -/
  names : List String := []
  /-- The expressions of nodes, the latest first. -/
  values : List (String × String) := []
  /-- What was done with the values, the latest first. -/
  accesses : List Access := []
  /-- What stood in for inputs, the latest first. -/
  standIns : List StandIn := []
  imports : Imports := {}
  /-- The module, the symbol and the alias of every import that was asked for, the latest first. -/
  aliases : List (String × String × String) := []
  diagnostics : Diagnostics := {}
  actor : String := mainActor

namespace Context

/-- The context of a task body. It knows the imports made so far, so that its aliases are new. -/
def child (context : Context) : Context :=
  { imports := context.imports, actor := taskActor }

/-- Take over the imports and diagnostics of a finished task body. -/
def absorb (context child : Context) : Context :=
  { context with
    imports := context.imports.merge child.imports
    diagnostics := context.diagnostics ++ child.diagnostics }

/-- The next temporary name with a stem. -/
def nextName (context : Context) (stem : String) : String :=
  stem ++ "_" ++ Nat.repr (context.temps + 1)

/-- Give out the next temporary name with a stem. -/
def issue (context : Context) (stem : String) : Context :=
  { context with
    temps := context.temps + 1
    names := context.nextName stem :: context.names }

/-- The expression that holds the value of a node. -/
def valueOf? (context : Context) (nodeId : String) : Option String :=
  context.values.lookup nodeId

/-- The point that has been reached. -/
def site (context : Context) : Site := ⟨context.lines.length, context.indent⟩

/-- Record the expression that holds the value of a node. -/
def record (context : Context) (nodeId expr : String) : Context :=
  { context with
    values := (nodeId, expr) :: context.values
    accesses := .recorded nodeId expr context.site :: context.accesses }

/-- Remember that a node asked for the value of another one. -/
def ask (context : Context) (consumer source port : String) : Context :=
  let access := .resolved consumer source port (context.valueOf? source) context.site
  { context with accesses := access :: context.accesses }

/-- Remember that a literal stood in for an input of a node. -/
def standIn (context : Context) (nodeId input : String) (literal : Literal) : Context :=
  { context with standIns := ⟨nodeId, input, literal⟩ :: context.standIns }

/-- Ask for the alias of a symbol. -/
def withImport (context : Context) (symbol module : String) : Context :=
  let (localName, imports) := context.imports.require symbol module
  { context with imports, aliases := (module, symbol, localName) :: context.aliases }

/-- The lines with their spaces. -/
def renderedLines (context : Context) : List String := context.lines.map Line.render

/-- All lines that were ever written, in their order. -/
def written (context : Context) : List Line := context.taken ++ context.lines

/-- Take the lines away. -/
def takeLines (context : Context) : Context :=
  { context with lines := [], taken := context.written }

/-- Write a line at the current indentation. -/
def push (context : Context) (text : String) : Context :=
  { context with lines := context.lines ++ [⟨context.indent, text⟩] }

/-- Indent the lines that follow. -/
def enter (context : Context) : Context :=
  { context with indent := context.indent + indentStep }

/-- Undo one level of indentation, if there is one. -/
def exit (context : Context) : Context :=
  { context with indent := context.indent - indentStep }

/-- Add a warning about a node. -/
def warn (context : Context) (nodeId message : String) : Context :=
  { context with diagnostics := context.diagnostics.warn (some nodeId) message }

end Context

/-- Actions on a context. -/
abbrev Emit := StateM Context

namespace Emit

/-- A new temporary name. -/
def fresh (stem : String) : Emit String := fun context =>
  (context.nextName stem, context.issue stem)

/-- Write a line. -/
def say (text : String) : Emit Unit := modify (·.push text)

/-- Write a header with an opening brace, a body one level deeper, and the closing brace. -/
def block {α : Type} (header : String) (body : Emit α) : Emit α := do
  say (header ++ " \x7b")
  modify Context.enter
  let result ← body
  modify Context.exit
  say "\x7d"
  return result

/-- Hold an expression in a constant unless it is simple, and return what stands for it. -/
def bind (stem expr : String) : Emit String :=
  if Text.isSimple expr then pure expr
  else do
    let name ← fresh stem
    say s!"const {name} = {expr};"
    return name

/-- Record the expression that holds the value of a node. -/
def produce (nodeId expr : String) : Emit Unit := modify (·.record nodeId expr)

/-- Add a warning about a node. -/
def warn (nodeId message : String) : Emit Unit := modify (·.warn nodeId message)

/-- The alias of an imported symbol. -/
def require (symbol module : String) : Emit String := fun context =>
  ((context.imports.require symbol module).1, context.withImport symbol module)

/-- The acting unit. -/
def actor : Emit String := do
  let context ← get
  return context.actor

/-- The expression for an input. An input that nothing is known of is `undefined`, with a warning
about the node that wants it. -/
def resolve (consumer : String) (port : Option Port) (fallback : Literal) : Emit String :=
  match port with
  | none => pure fallback.render
  | some (.literal value) => pure value.render
  | some (.edge source name) => do
    let context ← get
    set (context.ask consumer source name)
    match context.valueOf? source with
    | some expr => return expr
    | none =>
      warn consumer
        s!"input references node '{source}' (port '{name}') which has not produced a value"
      return unresolved

/-- The expression for a named input of a node. The fallback stands in for an input that nothing was
given for. -/
def input (node : Node) (name : String) (fallback : Literal) : Emit String := do
  if (node.input? name).isNone then modify (·.standIn node.id name fallback)
  resolve node.id (node.input? name) fallback

/-- The expression for an input as a literal, which is undefined if nothing is known of it. -/
def optionalInput (node : Node) (name : String) (fallback : Literal) : Emit Literal := do
  let expr ← input node name fallback
  return if expr = unresolved then .undefined else .text expr

/-- The acting unit, unless the node names another one. -/
def actorInput (node : Node) : Emit String := do
  input node "actor" (.text (← actor))

/-- A member of the acting unit, to be used where nothing else is given. -/
def actorMember (member : String) : Emit Literal := do
  return .text ((← actor) ++ "." ++ member)

/-- Hold an expression in a new constant that is the value of a node. -/
def define (node : Node) (stem expr : String) : Emit String := do
  let name ← fresh stem
  say s!"const {name} = {expr};"
  produce node.id name
  return name

end Emit

end TickScript.Emission
