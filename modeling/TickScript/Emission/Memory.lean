import TickScript.Emission.Context
import TickScript.Text.Path

/-!
# Statements of memory nodes

A memory location is a base expression and a list of key expressions. Reading tolerates missing
parts of the way to it, and writing makes them.
-/

namespace TickScript.Kind

open TickScript.Emission TickScript.Text

/-- A memory location. -/
structure Location where
  base : String
  /-- The keys that the scope adds. -/
  scopeKeys : List String
  /-- The keys of the path that is set. -/
  pathKeys : List String

namespace Location

/-- All keys, those of the scope first. -/
def keys (location : Location) : List String := location.scopeKeys ++ location.pathKeys

/-- The access that stops at a missing part. -/
def optional (location : Location) : String :=
  location.keys.foldl (fun access key => s!"{access}?.[{key}]") location.base

/-- The access to the first keys of the location. -/
def direct (location : Location) (length : Nat) : String :=
  (location.keys.take length).foldl (fun access key => s!"{access}[{key}]") location.base

end Location

namespace Memory

/-- The location of a memory node. -/
def locate (settings : Memory) (node : Node) : Emit Location := do
  let pathKeys := (splitPath settings.path).map quote
  match settings.scope with
  | .global => return ⟨"Memory", [], pathKeys⟩
  | .room =>
    let room ← Emit.input node "room" (← Emit.actorMember "room")
    let room ← Emit.bind "room" room
    return ⟨"Memory", [quote "rooms", s!"{room}.name"], pathKeys⟩
  | .actor =>
    let actor ← Emit.actorInput node
    return ⟨s!"{actor}.memory", [], pathKeys⟩

/-- Read a location, with a default if one is given. -/
def emitRead (settings : Memory) (node : Node) : Emit Unit := do
  let location ← settings.locate node
  let default ← Emit.input node "default" settings.default
  let access := location.optional
  let read :=
    if (node.input? "default").isNone && settings.default.isUndefined then access
    else s!"{access} ?? {default}"
  let _ ← Emit.define node "mem" read

/-- Make the way to a location. -/
def emitParents (location : Location) : Emit Unit :=
  ((List.range location.keys.length).drop 1).forM fun length => do
    let parent := location.direct length
    Emit.say s!"if ({parent} == null) {parent} = \x7b\x7d;"

/-- Store a value at a location, or merge it into the object that is there. -/
def emitStore (settings : Memory) (location : Location) (value : String) : Emit Unit := do
  let target := location.direct location.keys.length
  if settings.merge then
    let old ← Emit.fresh "prev"
    Emit.say s!"const {old} = {target};"
    Emit.say (s!"{target} = {old} !== null && typeof {old} === \"object\" && " ++
      s!"!Array.isArray({old}) ? Object.assign(\x7b\x7d, {old}, {value}) : {value};")
  else Emit.say s!"{target} = {value};"

/-- Write a value to a location. -/
def emitWrite (settings : Memory) (node : Node) : Emit Unit := do
  let location ← settings.locate node
  if location.pathKeys.isEmpty then Emit.warn node.id "memory write has an empty path"
  else
    let value ← Emit.input node "value" settings.value
    let value ← Emit.bind "value" value
    emitParents location
    settings.emitStore location value
    Emit.produce node.id value

/-- Delete a location. -/
def emitDelete (settings : Memory) (node : Node) : Emit Unit := do
  let location ← settings.locate node
  if location.pathKeys.isEmpty then Emit.warn node.id "memory delete has an empty path"
  else
    Emit.say s!"delete {location.optional};"
    Emit.produce node.id "true"

end Memory

end TickScript.Kind
