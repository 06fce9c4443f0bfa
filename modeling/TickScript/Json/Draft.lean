import TickScript.Json.Numeral

/-!
# Texts read from left to right

A draft is what a reader has seen of a data text: its values in text order, and at the point where
the text breaks off, the reason. A record can be filled from a draft up to that point, so a member
of the wrong type is noticed before a fault that comes after it. `Draft.value` turns a whole draft
into a value and `Draft.skip` checks one that nobody needs, with less care for its contents.
-/

namespace TickScript.Json

/-- What stands between two quotes. A reader needs its characters; one who skips it only needs its
end. -/
structure Scan where
  content : Except Fault String
  skipped : Except Fault Unit

namespace Scan

/-- A text that breaks off, with an earlier fault in its characters if there was one. -/
def broken (earlier : Option Fault) (fault : Fault) : Scan :=
  ⟨.error (earlier.getD fault), .error fault⟩

/-- A text that ends at its quote. -/
def closed (earlier : Option Fault) (chars : List Char) : Scan :=
  match earlier with
  | none => ⟨.ok (String.ofList chars), .ok ()⟩
  | some fault => ⟨.error fault, .ok ()⟩

end Scan

/-- The character that a one-letter escape stands for. -/
def unescape? (c : Char) : Option Char :=
  if c = '"' ∨ c = '\\' ∨ c = '/' then some c
  else if c = 'n' then some '\n'
  else if c = 'r' then some '\r'
  else if c = 't' then some '\t'
  else if c = 'b' then some (Char.ofNat 8)
  else if c = 'f' then some (Char.ofNat 12)
  else none

/-- The value of a hexadecimal digit. -/
def hexValue? (c : Char) : Option Nat :=
  if c.isDigit then some (c.toNat - 48)
  else if 'a' ≤ c ∧ c ≤ 'f' then some (c.toNat - 87)
  else if 'A' ≤ c ∧ c ≤ 'F' then some (c.toNat - 55)
  else none

/-- The number of four hexadecimal digits. -/
def hexQuad? (a b c d : Char) : Option Nat := do
  let a ← hexValue? a
  let b ← hexValue? b
  let c ← hexValue? c
  let d ← hexValue? d
  return ((a * 16 + b) * 16 + c) * 16 + d

/-- What is still open while the characters of a text are read: the first half of a surrogate pair,
and the first fault in a character. -/
structure Pending where
  lead : Option Nat := none
  fault : Option Fault := none

namespace Pending

/-- A character that is not the second half of a pair leaves the first half alone. -/
def settle (pending : Pending) : Option Fault :=
  pending.fault.or (pending.lead.map fun _ => .cutEscape)

/-- Add the code unit of an escape: the characters it completes and what is open after it. -/
def addUnit (pending : Pending) (unit : Nat) : List Char × Pending :=
  match pending.fault, pending.lead with
  | some fault, _ => ([], ⟨none, some fault⟩)
  | none, some lead =>
    if 0xDC00 ≤ unit ∧ unit ≤ 0xDFFF then
      ([Char.ofNat ((lead - 0xD800) * 1024 + (unit - 0xDC00) + 0x10000)], {})
    else ([], ⟨none, some .loneSurrogate⟩)
  | none, none =>
    if 0xDC00 ≤ unit ∧ unit ≤ 0xDFFF then ([], ⟨none, some .loneSurrogate⟩)
    else if 0xD800 ≤ unit ∧ unit ≤ 0xDBFF then ([], ⟨some unit, none⟩)
    else ([Char.ofNat unit], {})

end Pending

/-- Read the characters of a text up to its closing quote. The characters read so far stand in
reverse. -/
def scanChars (pending : Pending) (seen : List Char) :
    List Char → Scan × Option (List Char)
  | [] => (.broken pending.fault .cutText, none)
  | '"' :: rest => (.closed pending.settle seen.reverse, some rest)
  | '\\' :: 'u' :: a :: b :: c :: d :: rest =>
    match hexQuad? a b c d with
    | none => (.broken pending.fault .invalidEscape, none)
    | some unit =>
      let (chars, pending) := pending.addUnit unit
      scanChars pending (chars ++ seen) rest
  | '\\' :: 'u' :: rest =>
    let size := rest.foldl (fun size c => size + c.utf8Size) 0
    (.broken pending.fault (if size < 4 then .cutText else .invalidEscape), none)
  | '\\' :: c :: rest =>
    match unescape? c with
    | none => (.broken pending.settle .invalidEscape, none)
    | some char => scanChars ⟨none, pending.settle⟩ (char :: seen) rest
  | '\\' :: [] => (.broken pending.fault .cutText, none)
  | c :: rest =>
    if c.toNat < 32 then (.broken pending.settle .controlCharacter, none)
    else scanChars ⟨none, pending.settle⟩ (c :: seen) rest

/-- How a list or an object comes to its end. -/
inductive Ending where
  | closed
  /-- The text ends after an item. -/
  | cut
  /-- Neither a comma nor the closing bracket follows. -/
  | unseparated
  /-- The closing bracket follows a comma. -/
  | danglingComma
  /-- The text ends after a comma. -/
  | cutAfterComma
  /-- A member does not begin with a quote. -/
  | keyNotText
  deriving DecidableEq

/-- What a reader has seen of a text. -/
inductive Draft where
  | null
  | bool (value : Bool)
  | number (value : Except Fault Number)
  | text (scan : Scan)
  | array (items : List Draft) (ending : Ending)
  | object (members : List (Scan × Draft)) (ending : Ending)
  | broken (fault skipFault : Fault)

/-- Space between tokens. -/
def isSpace (c : Char) : Bool := c = ' ' || c = '\n' || c = '\t' || c = '\r'

/-- Skip the space before a token. -/
def skipSpace (chars : List Char) : List Char := chars.dropWhile isSpace

/-- Read the rest of a keyword. -/
def scanWord (word : List Char) (draft : Draft) (chars : List Char) : Draft × Option (List Char) :=
  match word, chars with
  | [], rest => (draft, some rest)
  | _ :: _, [] => (.broken .cutValue .cutValue, none)
  | expected :: word, c :: rest =>
    if c = expected then scanWord word draft rest else (.broken .expectedIdent .expectedIdent, none)

/-- Read a number token. -/
def scanNumber (chars : List Char) : Draft × Option (List Char) :=
  match Numeral.scan chars with
  | .ok (numeral, rest) => (.number (numeral.value.mapError fun _ => .numberTooLarge), some rest)
  | .error stop => (.broken stop.fault stop.skipFault, none)

mutual

/-- Read the value at the front of a text. Nothing is left when the text breaks off inside it. The
budget bounds the number of steps and is never used up by `read`. -/
def readValue : Nat → List Char → Draft × Option (List Char)
  | 0, _ => (.broken .cutValue .cutValue, none)
  | budget + 1, chars =>
    match skipSpace chars with
    | [] => (.broken .cutValue .cutValue, none)
    | '"' :: rest =>
      let (scan, rest) := scanChars {} [] rest
      (.text scan, rest)
    | '[' :: rest => readFirstItem budget rest
    | '\x7b' :: rest => readFirstMember budget rest
    | 'n' :: rest => scanWord ['u', 'l', 'l'] .null rest
    | 't' :: rest => scanWord ['r', 'u', 'e'] (.bool true) rest
    | 'f' :: rest => scanWord ['a', 'l', 's', 'e'] (.bool false) rest
    | c :: rest =>
      if c.isDigit || c = '-' then scanNumber (c :: rest)
      else (.broken .expectedValue .expectedValue, none)

/-- Read the items of a list after its opening bracket. -/
def readFirstItem : Nat → List Char → Draft × Option (List Char)
  | 0, _ => (.array [] .cut, none)
  | budget + 1, chars =>
    match skipSpace chars with
    | [] => (.array [] .cut, none)
    | ']' :: rest => (.array [] .closed, some rest)
    | rest => readItems budget rest []

/-- Read an item and all that follow. The items read so far stand in reverse. -/
def readItems : Nat → List Char → List Draft → Draft × Option (List Char)
  | 0, _, seen => (.array seen.reverse .cut, none)
  | budget + 1, chars, seen =>
    match readValue budget chars with
    | (item, none) => (.array (item :: seen).reverse .closed, none)
    | (item, some rest) =>
      let items := item :: seen
      match skipSpace rest with
      | [] => (.array items.reverse .cut, none)
      | ']' :: rest => (.array items.reverse .closed, some rest)
      | ',' :: rest =>
        match skipSpace rest with
        | [] => (.array items.reverse .cutAfterComma, none)
        | ']' :: _ => (.array items.reverse .danglingComma, none)
        | rest => readItems budget rest items
      | _ => (.array items.reverse .unseparated, none)

/-- Read the members of an object after its opening brace. -/
def readFirstMember : Nat → List Char → Draft × Option (List Char)
  | 0, _ => (.object [] .cut, none)
  | budget + 1, chars =>
    match skipSpace chars with
    | [] => (.object [] .cut, none)
    | '\x7d' :: rest => (.object [] .closed, some rest)
    | '"' :: rest => readMembers budget rest []
    | _ => (.object [] .keyNotText, none)

/-- Read a member after its opening quote and all that follow. -/
def readMembers : Nat → List Char → List (Scan × Draft) → Draft × Option (List Char)
  | 0, _, seen => (.object seen.reverse .cut, none)
  | budget + 1, chars, seen =>
    match scanChars {} [] chars with
    | (key, none) => (.object ((key, .null) :: seen).reverse .closed, none)
    | (key, some rest) =>
      match skipSpace rest with
      | [] => (.object ((key, .broken .cutObject .cutObject) :: seen).reverse .closed, none)
      | ':' :: rest =>
        match readValue budget rest with
        | (value, none) => (.object ((key, value) :: seen).reverse .closed, none)
        | (value, some rest) =>
          let members := (key, value) :: seen
          match skipSpace rest with
          | [] => (.object members.reverse .cut, none)
          | '\x7d' :: rest => (.object members.reverse .closed, some rest)
          | ',' :: rest =>
            match skipSpace rest with
            | [] => (.object members.reverse .cutAfterComma, none)
            | '"' :: rest => readMembers budget rest members
            | '\x7d' :: _ => (.object members.reverse .danglingComma, none)
            | _ => (.object members.reverse .keyNotText, none)
          | _ => (.object members.reverse .unseparated, none)
      | _ => (.object ((key, .broken .expectedColon .expectedColon) :: seen).reverse .closed, none)

end

namespace Ending

/-- The fault of a list that is read for its items. -/
def ofList : Ending → Except Fault Unit
  | .closed => .ok ()
  | .cut => .error .cutList
  | .unseparated => .error .expectedListEnd
  | .danglingComma => .error .trailingComma
  | .cutAfterComma => .error .cutValue
  | .keyNotText => .error .keyNotText

/-- The fault of a list from which no further item is wanted. -/
def ofRow : Ending → Except Fault Unit
  | .closed => .ok ()
  | .cut => .error .cutList
  | .danglingComma => .error .trailingComma
  | _ => .error .trailingText

/-- The fault of a list that is skipped. -/
def ofSkippedList : Ending → Except Fault Unit
  | .danglingComma => .error .expectedValue
  | ending => ending.ofList

/-- The fault of an object that is read for its members. -/
def ofObject : Ending → Except Fault Unit
  | .closed => .ok ()
  | .cut => .error .cutObject
  | .unseparated => .error .expectedObjectEnd
  | .danglingComma => .error .trailingComma
  | .cutAfterComma => .error .cutValue
  | .keyNotText => .error .keyNotText

/-- The fault of an object that is skipped. -/
def ofSkippedObject : Ending → Except Fault Unit
  | .danglingComma => .error .keyNotText
  | .cutAfterComma => .error .cutObject
  | ending => ending.ofObject

end Ending

namespace Draft

/-- How many lists and objects may stand inside each other. -/
def depthLimit : Nat := 127

mutual

/-- The value of a draft, if at most the given number of containers stand inside each other. -/
def value (room : Nat) : Draft → Except Fault Value
  | .null => .ok .null
  | .bool value => .ok (.bool value)
  | .number value => .number <$> value
  | .text scan => .text <$> scan.content
  | .broken fault _ => .error fault
  | .array items ending =>
    match room with
    | 0 => .error .tooDeep
    | room + 1 => do
      let items ← itemValues room items
      ending.ofList
      return .array items
  | .object members ending =>
    match room with
    | 0 => .error .tooDeep
    | room + 1 => do
      let members ← memberValues room members
      ending.ofObject
      return .ofMembers members

/-- The values of the items of a list, up to the first fault. -/
def itemValues (room : Nat) : List Draft → Except Fault (List Value)
  | [] => .ok []
  | item :: items => do
    let item ← value room item
    let items ← itemValues room items
    return item :: items

/-- The members of an object, up to the first fault. -/
def memberValues (room : Nat) : List (Scan × Draft) → Except Fault (List (String × Value))
  | [] => .ok []
  | (key, member) :: members => do
    let key ← key.content
    let member ← value room member
    let members ← memberValues room members
    return (key, member) :: members

end

mutual

/-- Check a value that nobody needs: its depth, the size of its numbers and the pairing of
surrogates are not looked at. -/
def skip : Draft → Except Fault Unit
  | .null | .bool _ | .number _ => .ok ()
  | .text scan => scan.skipped
  | .broken _ fault => .error fault
  | .array items ending => do
    skipItems items
    ending.ofSkippedList
  | .object members ending => do
    skipMembers members
    ending.ofSkippedObject

/-- Check the items of a list that nobody needs. -/
def skipItems : List Draft → Except Fault Unit
  | [] => .ok ()
  | item :: items => do
    skip item
    skipItems items

/-- Check the members of an object that nobody needs. -/
def skipMembers : List (Scan × Draft) → Except Fault Unit
  | [] => .ok ()
  | (key, member) :: members => do
    key.skipped
    skip member
    skipMembers members

end

/-- Read the value at the front of a text. From one value to the first inside it there are at most
three steps, and one character at least is taken on the way; every later item or member takes a
comma. So three steps for each character and one for the end of the text are enough. -/
def read (text : String) : Draft × Option (List Char) :=
  let chars := text.toList
  readValue (3 * chars.length + 1) chars

/-- Nothing but space may follow the value of a text. -/
def checkEnd : Option (List Char) → Except Fault Unit
  | none => .ok ()
  | some rest => if (skipSpace rest).isEmpty then .ok () else .error .trailingText

end Draft

/-- The value of a whole text. -/
def Value.ofText (text : String) : Except Fault Value := do
  let (draft, rest) := Draft.read text
  let value ← draft.value Draft.depthLimit
  Draft.checkEnd rest
  return value

end TickScript.Json
