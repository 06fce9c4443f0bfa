import TickScript.Emission.Action
import TickScript.Emission.Joins
import TickScript.Emission.Memory
import TickScript.Emission.Query
import TickScript.Emission.Spawn
import TickScript.Emission.Structure
import TickScript.Emission.Task

/-!
# Walks over a graph

A walk writes the nodes of one function, each at most once. Its state is the context, the ids that
have been visited, and the join points that wait for the end of an open construct. A journal says what
the walk has done so far, and how many lines there were by then; no action reads it.
-/

namespace TickScript.Emission

/-- What follows a node that has been written. -/
inductive Continuation where
  /-- The nodes at its flow outputs. -/
  | outputs
  /-- Nothing: the node ends its chain. -/
  | stop
  deriving DecidableEq

/-- What happens to an id that a walk comes to. -/
inductive Walk.Event where
  /-- It is left for later, because it waits as a join point. -/
  | postponed (id : String)
  /-- It is visited for the first time. -/
  | entered (id : String)
  /-- The statements of its node begin. The nodes that several slots lead to wait for their end. -/
  | began (id : String) (shared : List String)
  /-- The statements of its node have ended, and this is what follows them. -/
  | ended (id : String) (continuation : Continuation)
  /-- Its node and all that follows it have been written. -/
  | left (id : String)
  deriving DecidableEq

/-- An event of a walk, and how many lines had been written when it happened. -/
structure Walk.Mark where
  event : Walk.Event
  written : Nat
  deriving DecidableEq

/-- The state of a walk. -/
structure Walk.State where
  context : Context := {}
  visited : List String := []
  joins : List String := []
  /-- What has happened, the latest first. -/
  journal : List Walk.Mark := []

namespace Walk.State

/-- The events of the journal. -/
def trace (state : State) : List Event := state.journal.map (·.event)

/-- Add an event to the journal. -/
def note (state : State) (event : Event) : State :=
  { state with journal := ⟨event, state.context.written.length⟩ :: state.journal }

/-- Mark an id as visited. -/
def enter (state : State) (id : String) : State :=
  { state.note (.entered id) with visited := id :: state.visited }

/-- Begin to write a node, with more ids waiting. -/
def suspend (state : State) (id : String) (shared waiting : List String) : State :=
  { state.note (.began id shared) with joins := state.joins ++ waiting }

/-- End to write a node that something follows, with the given ids waiting. -/
def resume (state : State) (id : String) (continuation : Continuation) (joins : List String) :
    State :=
  { state.note (.ended id continuation) with joins }

end Walk.State

/-- Actions of a walk. -/
abbrev Walk := StateM Walk.State

namespace Walk

/-- An action on the context of a walk. -/
def lift {α : Type} (action : Emit α) : Walk α := fun state =>
  let (result, context) := action state.context
  (result, { state with context })

/-- Write a line. -/
def say (text : String) : Walk Unit := lift (Emit.say text)

/-- Do something one level deeper. -/
def indented {α : Type} (body : Walk α) : Walk α := do
  lift (modify Context.enter)
  let result ← body
  lift (modify Context.exit)
  return result

/-- Write a header with an opening brace, a body one level deeper, and the closing brace. -/
def block {α : Type} (header : String) (body : Walk α) : Walk α := do
  say (header ++ " \x7b")
  let result ← indented body
  say "\x7d"
  return result

end Walk

end TickScript.Emission
