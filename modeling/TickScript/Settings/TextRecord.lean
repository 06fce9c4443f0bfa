import TickScript.Json.Draft
import TickScript.Settings.Record

/-!
# Records read from a text

A record can be read from a draft of a text without making a value of it first. Members count in the
order of the text: the first failure wins, be it a member of the wrong type or a fault of the text.
Members that the record does not know are skipped.
-/

namespace TickScript.Settings

open TickScript.Json (Draft Scan Value)

/-- How a type is read from a draft, with room for some containers inside each other. -/
abbrev Reading (α : Type) := Nat → Draft → Except Failure α

namespace Reading

variable {α σ : Type}

/-- A fault of the text as a failure. -/
def ofFault {γ : Type} : Except Json.Fault γ → Except Failure γ
  | .ok content => .ok content
  | .error fault => .error (.malformed fault)

/-- A failure to find what was expected. A scalar is read before it is found to be wrong. -/
def mismatch {γ : Type} (draft : Draft) (expected : Expected) : Except Failure γ :=
  let wrong (found : Found) : Except Failure γ := .error (.wrongType found expected)
  match draft with
  | .null => wrong .null
  | .bool value => wrong (.bool value)
  | .number value => do wrong (.number (← ofFault value))
  | .text scan => do wrong (.text (← ofFault scan.content))
  | .array _ _ => wrong .sequence
  | .object _ _ => wrong .map
  | .broken fault _ => .error (.malformed fault)

/-- Texts. -/
def text : Reading String := fun _ draft =>
  match draft with
  | .text scan => ofFault scan.content
  | _ => mismatch draft .text

/-- Numbers of the binary format. -/
def number : Reading Binary64 := fun _ draft =>
  match draft with
  | .number value => Json.Number.toBinary64 <$> ofFault value
  | _ => mismatch draft .number

/-- Free-form values. -/
def value : Reading Value := fun room draft => ofFault (draft.value room)

/-- Values that may be null. -/
def optional (reading : Reading α) : Reading (Option α) := fun room draft =>
  match draft with
  | .null => .ok none
  | _ => some <$> reading room draft

/-- Sequences. -/
def list (reading : Reading α) : Reading (List α) := fun room draft =>
  match draft, room with
  | .array _ _, 0 => .error (.malformed .tooDeep)
  | .array items ending, room + 1 => do
    let items ← items.mapM (reading room)
    ofFault ending.ofList
    return items
  | _, _ => mismatch draft .sequence

end Reading

/-- One field of a record type that is read from a text. -/
structure TextField (σ : Type) where
  name : String
  aliases : List String := []
  presence : Presence
  load : Reading (σ → σ)

namespace TextField

variable {σ α : Type}

/-- A field that keeps its blank value when it is left out. -/
def defaulted (name : String) (reading : Reading α) (set : σ → α → σ)
    (aliases : List String := []) : TextField σ where
  name := name
  aliases := aliases
  presence := .defaulted
  load := fun room draft => (fun content record => set record content) <$> reading room draft

/-- A field that has to be given. -/
def required (name : String) (reading : Reading α) (set : σ → α → σ)
    (aliases : List String := []) : TextField σ :=
  { defaulted name reading set aliases with presence := .required }

/-- Whether a member belongs to the field. -/
def answersTo (field : TextField σ) (member : String) : Bool :=
  member == field.name || field.aliases.contains member

end TextField

/-- How a record type is read from a text. -/
structure TextRecord (σ : Type) where
  name : String
  fields : List (TextField σ)
  blank : σ

namespace TextRecord

variable {σ : Type}

/-- Take one member of an object into a record. -/
def takeMember (record : TextRecord σ) (room : Nat) (filled : Record.Filled σ)
    (member : Scan × Draft) : Except Failure (Record.Filled σ) := do
  let key ← Reading.ofFault member.1.content
  match record.fields.find? (·.answersTo key) with
  | none =>
    Reading.ofFault member.2.skip
    return filled
  | some field =>
    if filled.2.contains field.name then throw (.duplicate field.name)
    else
      let change ← field.load room member.2
      return (change filled.1, field.name :: filled.2)

/-- A required field must have been filled. -/
def checkFilled (record : TextRecord σ) (names : List String) : Except Failure Unit :=
  match record.fields.find? fun field =>
      field.presence == .required && !names.contains field.name with
  | some field => .error (.missing field.name)
  | none => .ok ()

/-- Read fields from the items at their places. The result has the items that are left. -/
def readRow (record : TextRecord σ) (room : Nat) (ending : Json.Ending) :
    Nat → List (TextField σ) → List Draft → σ → Except Failure (σ × List Draft)
  | _, [], items, value => .ok (value, items)
  | index, field :: fields, [], value => do
    Reading.ofFault ending.ofList
    if field.presence = .defaulted then readRow record room ending (index + 1) fields [] value
    else throw (.wrongLength index (.recordOf record.name record.fields.length))
  | index, field :: fields, item :: items, value => do
    let change ← field.load room item
    readRow record room ending (index + 1) fields items (change value)

/-- A record as an object or an array. -/
def reading (record : TextRecord σ) : Reading σ := fun room draft =>
  match draft, room with
  | .object _ _, 0 => .error (.malformed .tooDeep)
  | .object members ending, room + 1 => do
    let filled ← members.foldlM (record.takeMember room) (record.blank, [])
    Reading.ofFault ending.ofObject
    record.checkFilled filled.2
    return filled.1
  | .array _ _, 0 => .error (.malformed .tooDeep)
  | .array items ending, room + 1 => do
    let (value, rest) ← record.readRow room ending 0 record.fields items record.blank
    if rest.isEmpty then
      Reading.ofFault ending.ofRow
      return value
    else throw (.malformed .trailingText)
  | _, _ => Reading.mismatch draft (.record record.name)

end TextRecord

end TickScript.Settings
