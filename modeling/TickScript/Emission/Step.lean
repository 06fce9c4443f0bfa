import TickScript.Emission.Routine

/-!
# Emitters as data

An emitter can be given as a list of steps with one text register: a step that yields a text puts it
there, and `$R` in a text stands for it. A step is a routine that yields its outcome, and `routines`
gives the outcome of every step.
-/

namespace TickScript.Emission

/-- One step of an emitter. -/
inductive Step where
  | temp (stem : String)
  | statement (text : String)
  | enter
  | exit
  | bind (stem expr : String)
  | set (nodeId expr : String)
  | value (nodeId : String)
  | resolve (consumer : String) (port : Option Port) (fallback : Literal)
  | require (symbol module : String)
  | warn (nodeId message : String)
  | actor
  | take
  /-- Write the nodes from the given ids on. -/
  | branch (ids : List String)
  /-- Write a slot of the node that is being emitted, or of the one under an id. -/
  | slot (name : String) (nodeId : Option String)
  | block (header : String) (body : List Step)
  | indented (body : List Step)
  | registered (kind : String)
  | input (name : String) (fallback : Literal)
  | setting (key : String)
  | produce (expr : String)

/-- What a step yields. -/
inductive Outcome where
  | nothing
  | text (value : String)
  | indent (spaces : Nat)
  | lines (rendered : List String)
  | flag (value : Bool)
  /-- The outcomes of a nested list of steps, each with the number of lines after it. -/
  | steps (outcomes : List (Outcome × Nat))

/-- Replace every `$R` by the register. -/
def substitute (register : List Char) : List Char → List Char
  | '$' :: 'R' :: rest => register ++ substitute register rest
  | c :: rest => c :: substitute register rest
  | [] => []

/-- A text with the register in place of every `$R`. -/
def fill (register text : String) : String :=
  String.ofList (substitute register.toList text.toList)

/-- What the steps speak of: the nodes that they know by their ids, and the node that is being
emitted with its settings. -/
structure Scene where
  table : NodeTable := .empty
  host : Option (Node × Json.Value) := none

namespace Scene

variable (scene : Scene)

/-- Yield a text, which also goes into the register. -/
def keep (text : Routine String) : Routine (Outcome × String) := do
  let text ← text
  return (.text text, text)

/-- Yield nothing and leave the register alone. -/
def quiet (register : String) (action : Routine Unit) : Routine (Outcome × String) := do
  action
  return (.nothing, register)

/-- Yield the indentation after a change of it. -/
def shift (register : String) (action : Routine Unit) : Routine (Outcome × String) := do
  action
  let context ← Routine.request .look
  return (.indent context.indent, register)

/-- Write the nodes from the given ids on. -/
def chains (ids : List String) : Routine Unit := .branch ids (.done ())

/-- The heads of a slot that a step names. -/
def slotHeads (name : String) (nodeId : Option String) : List String :=
  let node : Option Node :=
    match nodeId with
    | some id => scene.table.get? id
    | none => scene.host.map (·.1)
  match node with
  | some node => node.slot name
  | none => []

/-- The expression for an input of the node that is being emitted. -/
def hostInput (name : String) (fallback : Literal) : Routine String :=
  match scene.host with
  | some (node, _) => .request (.input node name fallback)
  | none => .done fallback.render

/-- The text of a setting of the node that is being emitted. -/
def hostSetting (key : String) : String :=
  match scene.host with
  | some (_, settings) => ((settings.get? key).map Literal.ofValue |>.getD .undefined).render
  | none => unresolved

/-- Record the value of the node that is being emitted. -/
def hostProduce (expr : String) : Routine Unit :=
  match scene.host with
  | some (node, _) => .request (.produce node.id expr)
  | none => .done ()

mutual

/-- The routine of one step with the given register. It yields its outcome and the register after
it. -/
def routine (register : String) : Step → Routine (Outcome × String)
  | .temp stem => keep (.request (.fresh (fill register stem)))
  | .statement text => quiet register (.request (.say (fill register text)))
  | .enter => shift register (.request .enter)
  | .exit => shift register (.request .exit)
  | .bind stem expr => keep (.request (.bind stem (fill register expr)))
  | .set nodeId expr => quiet register (.request (.produce nodeId (fill register expr)))
  | .value nodeId => do
    let context ← Routine.request .look
    match context.valueOf? nodeId with
    | some expr => return (.text expr, register)
    | none => return (.nothing, register)
  | .resolve consumer port fallback => keep (.request (.resolve consumer port fallback))
  | .require symbol module => keep (.request (.require symbol module))
  | .warn nodeId message => quiet register (.request (.warn nodeId (fill register message)))
  | .actor => keep do
    let context ← Routine.request .look
    return context.actor
  | .take => do
    let context ← Routine.request .look
    Routine.request .takeLines
    return (.lines context.renderedLines, register)
  | .branch ids => quiet register (chains ids)
  | .slot name nodeId => quiet register (chains (scene.slotHeads name nodeId))
  | .block header body => do
    let (outcomes, register) ← Routine.block (fill register header) (routines register body)
    return (.steps outcomes, register)
  | .indented body => do
    let (outcomes, register) ← Routine.indented (routines register body)
    return (.steps outcomes, register)
  | .registered kind => .registered fun kinds => .done (.flag (kinds.contains kind), register)
  | .input name fallback => keep (scene.hostInput name fallback)
  | .setting key => keep (.done (scene.hostSetting key))
  | .produce expr => quiet register (scene.hostProduce (fill register expr))

/-- Steps one after the other. Each outcome stands with the number of lines after its step. -/
def routines (register : String) : List Step → Routine (List (Outcome × Nat) × String)
  | [] => .done ([], register)
  | step :: steps => do
    let (outcome, register) ← routine register step
    let context ← Routine.request .look
    let count := context.lines.length
    let (outcomes, register) ← routines register steps
    return ((outcome, count) :: outcomes, register)

end

end Scene

/-- An emitter for a kind, as data. -/
structure Emitter where
  kind : String
  steps : List Step
  /-- Whether a node of the kind ends its chain. -/
  stop : Bool := false

/-- The emitter that takes the steps. -/
def Emitter.toNodeEmitter (emitter : Emitter) : NodeEmitter where
  kind := emitter.kind
  emit node settings := do
    let _ ← Scene.routines { host := some (node, settings) } "" emitter.steps
    return if emitter.stop then .stop else .outputs

/-- Add an emitter that is given as data. -/
def Registry.register (registry : Registry) (emitter : Emitter) : Registry :=
  registry.add emitter.toNodeEmitter

/-- What steps run on where no node is being emitted: the nodes, the registry, and how nodes are
written. -/
structure Stage where
  table : NodeTable
  registry : Registry
  branch : List String → Walk Unit

namespace Stage

variable (stage : Stage)

/-- Take one step in a walk. -/
def runStep (register : String) (step : Step) : Walk (Outcome × String) :=
  (Scene.routine { table := stage.table } register step).run stage.registry stage.branch

/-- Take steps in a walk, one after the other. -/
def runSteps (register : String) (steps : List Step) :
    Walk (List (Outcome × Nat) × String) :=
  (Scene.routines { table := stage.table } register steps).run stage.registry stage.branch

end Stage

end TickScript.Emission
