import TickScript.Emission.Context
import TickScript.Text.Path

/-!
# Statements of spawn nodes

A spawn makes a unit with a body that is fixed, filled by weights within the energy at hand, or
taken from a table of presets by level. A preset is chosen at compile time when the level is known
then, and by a loop of the script otherwise.
-/

namespace TickScript.Kind.Spawn

open TickScript.Emission TickScript.Text

/-- No body has more parts than this. -/
def bodyLimit : Nat := 50

/-- A list display of body parts. -/
def partsList (parts : List BodyPart) : String := listing (parts.map (·.constant))

/-- The fixed body, which is the default one if none is set. -/
def fixedParts (settings : Spawn) : List BodyPart :=
  if settings.parts.isEmpty then BodyPart.defaultBody else settings.parts

/-- The highest tier that is not above a level, or the lowest one if all are above it. -/
def selectTier (tiers : List Nat) (level : Nat) : Option Nat :=
  (tiers.filter (· ≤ level)).max?.or tiers.min?

/-- Hold the fixed body in a constant. -/
def emitFixed (settings : Spawn) : Emit String := do
  let body ← Emit.fresh "body"
  Emit.say s!"const {body} = {partsList settings.fixedParts};"
  return body

/-- The parts with a positive weight, in the order in which the body is filled. -/
def positiveWeights (settings : Spawn) : List (BodyPart × Nat) :=
  BodyPart.priority.filterMap fun part =>
    match settings.weights.get? part with
    | some weight => if 0 < weight then some (part, weight) else none
    | none => none

/-- The row of a weight table for one part. -/
def weightRow (part : BodyPart) (weight : Nat) : String :=
  let constant := part.constant
  s!"[{constant}, {weight}]"

/-- Fill the body by weights while the energy lasts. -/
def emitFilled (settings : Spawn) (weights : List (BodyPart × Nat)) (spawn : String) :
    Emit String := do
  let limit := max 1 (min settings.maxParts bodyLimit)
  let table := listing (weights.map fun (part, weight) => weightRow part weight)
  let body ← Emit.fresh "body"
  let budget ← Emit.fresh "budget"
  let added ← Emit.fresh "added"
  Emit.say s!"const {body} = [];"
  Emit.say s!"let {budget} = {atom spawn}.room.energyAvailable;"
  Emit.say s!"let {added} = true;"
  Emit.block s!"while ({added} && {body}.length < {limit})" do
    Emit.say s!"{added} = false;"
    Emit.block s!"for (const [part, weight] of {table})" do
      Emit.block s!"for (let k = 0; k < weight && {body}.length < {limit}; k++)" do
        Emit.say s!"if (BODYPART_COST[part] > {budget}) break;"
        Emit.say s!"{body}.push(part);"
        Emit.say s!"{budget} -= BODYPART_COST[part];"
        Emit.say s!"{added} = true;"
  let fallback := ", ".intercalate (settings.fixedParts.map (·.constant))
  Emit.say s!"if ({body}.length === 0) {body}.push({fallback});"
  return body

/-- Fill the body by weights, or use the fixed one if no weight is positive. -/
def emitWeighted (settings : Spawn) (node : Node) (spawn : String) : Emit String := do
  let weights := settings.positiveWeights
  if weights.isEmpty then
    Emit.warn node.id "weighted body has no positive weights; using fixed parts"
    settings.emitFixed
  else settings.emitFilled weights spawn

/-- The preset for a level that is known. -/
def presetParts (settings : Spawn) (level : Nat) : List BodyPart :=
  match selectTier settings.presets.keys level with
  | some tier => (settings.presets.get? tier).getD settings.fixedParts
  | none => settings.fixedParts

/-- Choose a preset when the script runs. -/
def emitSelection (settings : Spawn) (node : Node) (spawn : String) (lowest : Nat) :
    Emit String := do
  let level ← Emit.input node "level" (.text s!"{atom spawn}.room.controller.level")
  let tiers := settings.presets.keys
  let table := Literal.map (settings.presets.entries.map fun (tier, parts) =>
    (Nat.repr tier, .text (partsList parts)))
  let presets ← Emit.fresh "presets"
  let tier ← Emit.fresh "tier"
  let body ← Emit.fresh "body"
  Emit.say s!"const {presets} = {table.render};"
  Emit.say s!"let {tier} = {lowest};"
  Emit.block s!"for (const t of {listing (tiers.map Nat.repr)})" do
    Emit.say s!"if (t <= {atom level}) {tier} = t;"
  Emit.say s!"const {body} = {presets}[{tier}];"
  return body

/-- Use a preset, or the fixed body if there are none. -/
def emitPreset (settings : Spawn) (node : Node) (spawn : String) : Emit String :=
  match settings.presets.keys with
  | [] => do
    Emit.warn node.id "preset body has no presets; using fixed parts"
    settings.emitFixed
  | lowest :: _ =>
    match settings.level, node.input? "level" with
    | some level, none => do
      let body ← Emit.fresh "body"
      Emit.say s!"const {body} = {partsList (settings.presetParts level)};"
      return body
    | _, _ => settings.emitSelection node spawn lowest

/-- The memory of the new unit with its texts as string constants. A `type` also serves as `role`
if there is no `role`. -/
def memoryTemplate (template : Literal) : Literal :=
  match template with
  | .map entries =>
    let role :=
      if entries.any (·.1 == "role") then []
      else
        match template.get? "type" with
        | some kind => [("role", kind)]
        | none => []
    (Literal.map (entries ++ role)).quoteTexts
  | .undefined | .null => .map []
  | other => other

/-- The expression for the spawn structure when none is connected. -/
def spawnFallback (settings : Spawn) : Literal :=
  match settings.spawn with
  | some name => .text s!"Game.spawns[{quote name}]"
  | none => .text "Object.values(Game.spawns)[0]"

/-- Spawn a unit. -/
def emit (settings : Spawn) (node : Node) : Emit Unit := do
  let spawn ← Emit.input node "spawn" settings.spawnFallback
  let spawn ← Emit.bind "spawn" spawn
  let body ←
    match settings.body with
    | .fixed => settings.emitFixed
    | .weighted => settings.emitWeighted node spawn
    | .preset => settings.emitPreset node spawn
  let name ← Emit.input node "name" (.text s!"{quote settings.name} + Game.time")
  let memory ← Emit.input node "memory" (memoryTemplate settings.memory)
  let _ ← Emit.define node "spawned"
    s!"{atom spawn}.spawnCreep({body}, {name}, \x7b memory: {memory} \x7d)"

end TickScript.Kind.Spawn
