import TickScript.Emission.Walk

/-!
# Emitters for further kinds

An emitter writes the nodes of a kind that is not built in. It is a program of its own, and only what
it asks for matters here: a `Routine` is the tree of its requests, where each answer decides how it
goes on. It ends with what follows the node. A routine may hold contexts beside the one that is being
written. They are values of its own, which the walk comes to see when they are absorbed.
-/

namespace TickScript.Emission

/-- What an emitter may ask of the context. -/
inductive Request where
  /-- Look at everything that the context holds. -/
  | look
  | fresh (stem : String)
  | say (text : String)
  | enter
  | exit
  | takeLines
  | bind (stem expr : String)
  | produce (nodeId expr : String)
  | resolve (consumer : String) (port : Option Port) (fallback : Literal)
  | input (node : Node) (name : String) (fallback : Literal)
  | require (symbol module : String)
  | warn (nodeId message : String)
  /-- Take over the imports and diagnostics of another context. -/
  | absorb (finished : Context)

namespace Request

/-- What a request is answered by. -/
abbrev Answer : Request → Type
  | look => Context
  | fresh _ | bind _ _ | resolve _ _ _ | input _ _ _ | require _ _ => String
  | say _ | enter | exit | takeLines | produce _ _ | warn _ _ | absorb _ => Unit

/-- Grant a request. -/
def perform : (request : Request) → Emit request.Answer
  | look => get
  | fresh stem => Emit.fresh stem
  | say text => Emit.say text
  | enter => modify Context.enter
  | exit => modify Context.exit
  | takeLines => modify Context.takeLines
  | bind stem expr => Emit.bind stem expr
  | produce nodeId expr => Emit.produce nodeId expr
  | resolve consumer port fallback => Emit.resolve consumer port fallback
  | input node name fallback => Emit.input node name fallback
  | require symbol module => Emit.require symbol module
  | warn nodeId message => Emit.warn nodeId message
  | absorb finished => modify (·.absorb finished)

end Request

/-- What an emitter asks for, one thing after the other, before it yields a value. -/
inductive Routine (α : Type) where
  | done (value : α)
  | ask (request : Request) (next : request.Answer → Routine α)
  /-- Write the nodes from the given ids on. -/
  | branch (ids : List String) (next : Routine α)
  /-- Learn for which kinds there are emitters. -/
  | registered (next : List String → Routine α)

namespace Routine

variable {α β : Type}

/-- Go on with what a routine yields. -/
def bind : Routine α → (α → Routine β) → Routine β
  | done value, rest => rest value
  | ask request next, rest => ask request fun answer => (next answer).bind rest
  | branch ids next, rest => branch ids (next.bind rest)
  | registered next, rest => registered fun kinds => (next kinds).bind rest

instance : Monad Routine where
  pure := done
  bind := bind

/-- A single request. -/
def request (request : Request) : Routine request.Answer := ask request done

/-- Do something one level deeper. -/
def indented (body : Routine α) : Routine α := do
  request .enter
  let result ← body
  request .exit
  return result

/-- Write a header with an opening brace, a body one level deeper, and the closing brace. -/
def block (header : String) (body : Routine α) : Routine α := do
  request (.say (header ++ " \x7b"))
  let result ← indented body
  request (.say "\x7d")
  return result

end Routine

/-- An emitter for a kind. What it does depends on the node and on its settings. -/
structure NodeEmitter where
  kind : String
  emit : Node → Json.Value → Routine Continuation

/-- The emitters for further kinds. -/
abbrev Registry := Keyed String NodeEmitter

namespace Registry

/-- Add an emitter, in place of any earlier one for its kind. -/
def add (registry : Registry) (emitter : NodeEmitter) : Registry :=
  registry.insert emitter.kind emitter

/-- The kinds of a registry as a message shows them. -/
def describe (registry : Registry) : String :=
  let kinds := ", ".intercalate (registry.keys.map Text.shown)
  "EmitterRegistry \x7b kinds: [" ++ kinds ++ "] \x7d"

end Registry

/-- Run a routine as a part of a walk. The registry says which kinds have emitters, and how nodes are
written is a parameter. -/
def Routine.run {α : Type} (registry : Registry) (branch : List String → Walk Unit) :
    Routine α → Walk α
  | done value => return value
  | ask request next => do
    let answer ← Walk.lift request.perform
    (next answer).run registry branch
  | .branch ids next => do
    branch ids
    next.run registry branch
  | registered next => (next registry.keys).run registry branch

end TickScript.Emission
