/-!
# UTF-8

The bytes of a text and back. A byte list that is no text fails at the first character that cannot
be read, with the number of its bytes that are wrong, or with none if the list ends too early.
-/

namespace TickScript.Text

/-- The byte of a number below 256. -/
def byte (n : Nat) : UInt8 := UInt8.ofNat n

/-- The bytes of a character. -/
def encodeChar (c : Char) : List UInt8 :=
  let code := c.toNat
  if code < 0x80 then [byte code]
  else if code < 0x800 then [byte (0xC0 + code / 64), byte (0x80 + code % 64)]
  else if code < 0x10000 then
    [byte (0xE0 + code / 4096), byte (0x80 + code / 64 % 64), byte (0x80 + code % 64)]
  else
    [byte (0xF0 + code / 262144), byte (0x80 + code / 4096 % 64), byte (0x80 + code / 64 % 64),
      byte (0x80 + code % 64)]

/-- The bytes of a text. -/
def encodeText (text : String) : List UInt8 := text.toList.flatMap encodeChar

/-- Why bytes are no text: how many bytes before are, and how many after them are wrong. -/
structure EncodingFault where
  validUpTo : Nat
  wrongBytes : Option Nat
  deriving DecidableEq

/-- A byte that continues a character. -/
def isContinuation (b : UInt8) : Bool := 0x80 ≤ b.toNat && b.toNat ≤ 0xBF

/-- The bytes that may follow the first one of a character of three or four bytes. -/
def secondByteRange (first : Nat) : Nat × Nat :=
  if first = 0xE0 then (0xA0, 0xBF)
  else if first = 0xED then (0x80, 0x9F)
  else if first = 0xF0 then (0x90, 0xBF)
  else if first = 0xF4 then (0x80, 0x8F)
  else (0x80, 0xBF)

/-- How many bytes a character has, by its first byte; zero for a byte that begins none. -/
def charWidth (first : Nat) : Nat :=
  if first < 0x80 then 1
  else if 0xC2 ≤ first ∧ first ≤ 0xDF then 2
  else if 0xE0 ≤ first ∧ first ≤ 0xEF then 3
  else if 0xF0 ≤ first ∧ first ≤ 0xF4 then 4
  else 0

/-- Check the bytes after the first one of a character. The result is the number of wrong bytes. -/
def checkTail (first : Nat) (tail : List UInt8) : Except (Option Nat) Unit :=
  let (low, high) := secondByteRange first
  let width := charWidth first
  match tail with
  | [] => if width = 1 then .ok () else if width = 0 then .error (some 1) else .error none
  | second :: more =>
    if width = 1 then .ok ()
    else if width = 0 ∨ second.toNat < low ∨ high < second.toNat then .error (some 1)
    else if width = 2 then .ok ()
    else
      match more with
      | [] => .error none
      | third :: more =>
        if !isContinuation third then .error (some 2)
        else if width = 3 then .ok ()
        else
          match more with
          | [] => .error none
          | fourth :: _ => if isContinuation fourth then .ok () else .error (some 3)

/-- The low six bits of a byte that continues a character. -/
def continuationBits (b : UInt8) : Nat := b.toNat % 64

/-- The character of its bytes. -/
def joinBytes (bytes : List UInt8) : Char :=
  match bytes with
  | [a] => Char.ofNat a.toNat
  | [a, b] => Char.ofNat (a.toNat % 32 * 64 + continuationBits b)
  | [a, b, c] =>
    Char.ofNat ((a.toNat % 16 * 64 + continuationBits b) * 64 + continuationBits c)
  | [a, b, c, d] =>
    Char.ofNat (((a.toNat % 8 * 64 + continuationBits b) * 64 + continuationBits c) * 64 +
      continuationBits d)
  | _ => Char.ofNat 0

/-- Read characters while there are bytes. The budget is the number of bytes. -/
def decodeChars : Nat → Nat → List UInt8 → Except EncodingFault (List Char)
  | _, _, [] => .ok []
  | 0, _, _ :: _ => .ok []
  | budget + 1, offset, first :: tail =>
    match checkTail first.toNat tail with
    | .error wrong => .error ⟨offset, wrong⟩
    | .ok () => do
      let width := charWidth first.toNat
      let bytes := first :: tail
      let rest ← decodeChars budget (offset + width) (bytes.drop width)
      return joinBytes (bytes.take width) :: rest

/-- The text of its bytes. -/
def decodeText (bytes : List UInt8) : Except EncodingFault String :=
  String.ofList <$> decodeChars bytes.length 0 bytes

end TickScript.Text
