import TickScript.Settings.Codec

/-!
# Records of settings

A record is read from an object, member by member in the order in which they stand, or from an
array in the order of its fields. It is written as an object with its fields in order.
-/

namespace TickScript.Settings

open TickScript.Json (Value)

/-- Whether a field may be left out. -/
inductive Presence where
  | required
  /-- The member of an object may be absent; the place in an array may not. -/
  | nullable
  /-- A field that is left out keeps the value of the blank record. -/
  | defaulted
  deriving DecidableEq

/-- One field of a record type. -/
structure Field (σ : Type) where
  name : String
  aliases : List String
  presence : Presence
  load : Origin → Value → Except Failure (σ → σ)
  save : σ → Value

namespace Field

variable {σ α : Type}

/-- A field that keeps its blank value when it is left out. -/
def defaulted (name : String) (codec : Codec α) (get : σ → α) (set : σ → α → σ)
    (aliases : List String := []) : Field σ where
  name := name
  aliases := aliases
  presence := .defaulted
  load := fun origin value => (fun content record => set record content) <$> codec.read origin value
  save := fun record => codec.write (get record)

/-- A field that has to be given, unless its codec says what its absence means. -/
def required (name : String) (codec : Codec α) (get : σ → α) (set : σ → α → σ)
    (aliases : List String := []) : Field σ :=
  { defaulted name codec get set aliases with
    presence := if codec.absent.isSome then .nullable else .required }

/-- Whether a member belongs to the field. -/
def answersTo (field : Field σ) (member : String) : Bool :=
  member == field.name || field.aliases.contains member

end Field

/-- How a record type is read and written. -/
structure Record (σ : Type) where
  name : String
  fields : List (Field σ)
  /-- The record before any field is read. -/
  blank : σ

namespace Record

variable {σ : Type}

/-- The fields filled so far, by name. -/
abbrev Filled (σ : Type) := σ × List String

/-- Take one member of an object into a record. Members of no field are passed over. -/
def takeMember (record : Record σ) (origin : Origin) (filled : Filled σ)
    (member : String × Value) : Except Failure (Filled σ) :=
  match record.fields.find? (·.answersTo member.1) with
  | none => .ok filled
  | some field =>
    if filled.2.contains field.name then .error (.duplicate field.name)
    else do
      let change ← field.load origin member.2
      return (change filled.1, field.name :: filled.2)

/-- A required field must have been filled. -/
def checkFilled (record : Record σ) (names : List String) : Except Failure Unit :=
  match record.fields.find? fun field =>
      field.presence == .required && !names.contains field.name with
  | some field => .error (.missing field.name)
  | none => .ok ()

/-- Read a record from the members of an object. -/
def readMembers (record : Record σ) (origin : Origin) (members : List (String × Value)) :
    Except Failure σ := do
  let filled ← members.foldlM (record.takeMember origin) (record.blank, [])
  record.checkFilled filled.2
  return filled.1

/-- Read fields from the items at their places. The result has the items that are left. -/
def readRow (record : Record σ) (origin : Origin) :
    Nat → List (Field σ) → List Value → σ → Except Failure (σ × List Value)
  | _, [], items, value => .ok (value, items)
  | index, field :: fields, [], value =>
    if field.presence = .defaulted then readRow record origin (index + 1) fields [] value
    else .error (.wrongLength index (.recordOf record.name record.fields.length))
  | index, field :: fields, item :: items, value => do
    let change ← field.load origin item
    readRow record origin (index + 1) fields items (change value)

/-- Read a record from the items of an array. -/
def readItems (record : Record σ) (origin : Origin) (items : List Value) : Except Failure σ := do
  let (value, rest) ← record.readRow origin 0 record.fields items record.blank
  if rest.isEmpty then return value
  else
    let expected : Expected :=
      match origin with
      | .direct => .fewerItems
      | .buffered => .items record.fields.length
    throw (.wrongLength items.length expected)

/-- A record as an object or an array. -/
def codec (record : Record σ) : Codec σ where
  read := fun origin value =>
    match value with
    | .object members => record.readMembers origin members
    | .array items => record.readItems origin items
    | _ => Codec.mismatch value (.record record.name)
  write := fun content => .object (record.fields.map fun field => (field.name, field.save content))

end Record

end TickScript.Settings
