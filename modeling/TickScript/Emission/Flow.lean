import TickScript.Emission.Walk

/-!
# Statements of flow nodes

Control nodes write their slots as nested blocks. How the heads of a slot are written is a
parameter, so that a construct can be described apart from the walk.
-/

namespace TickScript.Kind

open TickScript.Emission TickScript.Text

variable (branch : List String → Walk Unit)

/-- Write one slot or another, by a condition. -/
def emitBranch (node : Node) : Walk Unit := do
  let condition ← Walk.lift (Emit.input node "condition" (.bool false))
  Walk.say s!"if ({condition}) \x7b"
  Walk.indented (branch (node.slot "true"))
  if !(node.slot "false").isEmpty then
    Walk.say "\x7d else \x7b"
    Walk.indented (branch (node.slot "false"))
  Walk.say "\x7d"

namespace Switch

/-- Whether a value has the same case as an earlier one. -/
def isRepeated (earlier : List Literal) (value : Literal) : Bool := earlier.any (· == value)

/-- Write the cases from an index on. A case whose value stands earlier is left out. -/
def emitCases (node : Node) : Nat → List Literal → List SwitchCase → Walk Unit
  | _, _, [] => pure ()
  | index, earlier, case :: cases => do
    let value := case.value.render
    if isRepeated earlier case.value then
      Walk.lift (Emit.warn node.id s!"duplicate case value {value} ignored (case {index})")
      emitCases node (index + 1) earlier cases
    else
      Walk.block s!"case {value}:" do
        branch (node.slot s!"case-{index}")
        Walk.say "break;"
      emitCases node (index + 1) (earlier ++ [case.value]) cases

/-- Write one of several slots, by a value. -/
def emit (settings : Switch) (node : Node) : Walk Unit := do
  let value ← Walk.lift (Emit.input node "value" .undefined)
  Walk.block s!"switch ({value})" do
    emitCases branch node 0 [] settings.cases
    Walk.block "default:" do
      branch (node.slot "default")
      Walk.say "break;"

end Switch

namespace Loop

/-- Write the body with a counter that runs up to the bound. -/
def emitCounted (settings : Loop) (node : Node) (ran : String) : Walk Unit := do
  let max := settings.maxIterations
  let counter ←
    match settings.iterator with
    | some name => if isIdentifier name then pure name else Walk.lift (Emit.fresh "i")
    | none => Walk.lift (Emit.fresh "i")
  Walk.block s!"for (let {counter} = 0; {counter} < {max}; {counter}++)" do
    Walk.say s!"{ran} = true;"
    Walk.lift (Emit.produce node.id counter)
    branch (node.slot "body")

/-- Write the body under a condition, with a guard that stops it at the bound. -/
def emitConditional (settings : Loop) (node : Node) (ran : String) : Walk Unit := do
  let max := settings.maxIterations
  let condition ← Walk.lift (Emit.input node "condition" (.bool true))
  let counter ← Walk.lift (Emit.fresh "guard")
  Walk.say s!"let {counter} = 0;"
  Walk.block s!"while ({condition})" do
    Walk.say s!"if ({counter} >= {max}) break;"
    Walk.say s!"{counter}++;"
    Walk.say s!"{ran} = true;"
    Walk.lift (Emit.produce node.id counter)
    branch (node.slot "body")

/-- Write a slot that runs several times, and another one for the case that it never ran. -/
def emit (settings : Loop) (node : Node) : Walk Unit := do
  let ran ← Walk.lift (Emit.fresh "ran")
  Walk.say s!"let {ran} = false;"
  match settings.mode with
  | .counted => settings.emitCounted branch node ran
  | .conditional => settings.emitConditional branch node ran
  if !(node.slot "else").isEmpty then
    Walk.block s!"if (!{ran})" (branch (node.slot "else"))

end Loop

/-- Write a slot whose errors are caught. -/
def emitAttempt (node : Node) : Walk Unit := do
  Walk.say "try \x7b"
  Walk.indented (branch (node.slot "try"))
  let error ← Walk.lift (Emit.fresh "err")
  Walk.say s!"\x7d catch ({error}) \x7b"
  Walk.indented do
    Walk.lift (Emit.produce node.id error)
    if (node.slot "catch").isEmpty then Walk.say "// error suppressed"
    else branch (node.slot "catch")
  if !(node.slot "finally").isEmpty then
    Walk.say "\x7d finally \x7b"
    Walk.indented (branch (node.slot "finally"))
  Walk.say "\x7d"

namespace Tick

/-- The interval of a gate, which is one if it is not positive. -/
def period (settings : Tick) : Int := if settings.interval ≤ 0 then 1 else settings.interval

/-- The condition of a gate on the current tick. -/
def condition (settings : Tick) : String :=
  let period := settings.period
  match settings.mode with
  | .multiple =>
    let shift := settings.offset.natAbs
    if settings.offset = 0 then s!"Game.time % {period} === 0"
    else if settings.offset < 0 then s!"(Game.time - {shift}) % {period} === 0"
    else s!"(Game.time + {shift}) % {period} === 0"
  | .modulo =>
    let rest := settings.offset % period
    s!"Game.time % {period} === {rest}"

/-- Write a slot that runs on some ticks only. -/
def emit (settings : Tick) (node : Node) : Walk Unit := do
  let gate ← Walk.lift (Emit.define node "tick" settings.condition)
  Walk.block s!"if ({gate})" (branch (node.slot "body"))

end Tick

/-- Write all slots one after the other. -/
def emitFanOut (node : Node) : Walk Unit :=
  node.slots.entries.forM fun (name, children) => do
    Walk.say s!"// branch: {name}"
    branch children

/-- End the function. -/
def Return.emit (settings : Return) (node : Node) : Emit Unit :=
  if (node.input? "value").isNone && settings.value.isUndefined then Emit.say "return;"
  else do
    let value ← Emit.input node "value" settings.value
    Emit.say s!"return {value};"

end TickScript.Kind
