import TickScript.Emission.File
import TickScript.Text.Utf8

/-!
# Artifacts

A compiled program as bytes: its fields in order, a text as its length and its bytes, a list as its
length and its items, an optional value behind a byte that is zero or one. A length below 251 is one
byte; a longer one stands behind a mark, in two, four or eight bytes from low to high. Reading takes
longer forms of small lengths too and leaves further bytes alone.
-/

namespace TickScript.Artifact

/-- What a length belongs to. Only the wording of a fault depends on it: the integer that the fault
says was expected is another one for a text near the end of the bytes than for other texts. -/
inductive Measured where
  | text
  | textNearEnd
  | list
  deriving DecidableEq

/-- The integer that a fault of a length names. -/
def Measured.integer : Measured → String
  | .text => "U32"
  | .textNearEnd => "U64"
  | .list => "Usize"

/-- Why bytes are no artifact. -/
inductive Fault where
  /-- Bytes are missing for what is being read. -/
  | cut (missing : Nat)
  /-- A mark for lengths that are not used, and one that has no meaning. -/
  | wideLength (measured : Measured)
  | reservedLength (measured : Measured)
  | unknownOption (found : Nat)
  | notText (fault : Text.EncodingFault)
  deriving DecidableEq

/-- The wording of a fault. -/
def Fault.message : Fault → String
  | .cut missing => "UnexpectedEnd \x7b additional: " ++ Nat.repr missing ++ " \x7d"
  | .wideLength measured =>
    "InvalidIntegerType \x7b expected: " ++ measured.integer ++ ", found: U128 \x7d"
  | .reservedLength measured =>
    "InvalidIntegerType \x7b expected: " ++ measured.integer ++ ", found: Reserved \x7d"
  | .unknownOption found =>
    "UnexpectedVariant \x7b type_name: \"Option<T>\", allowed: Range \x7b min: 0, max: 1 \x7d, " ++
      "found: " ++ Nat.repr found ++ " \x7d"
  | .notText fault =>
    let wrong :=
      match fault.wrongBytes with
      | some count => "Some(" ++ Nat.repr count ++ ")"
      | none => "None"
    "Utf8 \x7b inner: Utf8Error \x7b valid_up_to: " ++ Nat.repr fault.validUpTo ++
      ", error_len: " ++ wrong ++ " \x7d \x7d"

/-- A number in a given count of bytes, from low to high. -/
def littleEndian (n : Nat) : Nat → List UInt8
  | 0 => []
  | count + 1 => Text.byte (n % 256) :: littleEndian (n / 256) count

/-- The number of bytes from low to high. -/
def ofLittleEndian : List UInt8 → Nat
  | [] => 0
  | b :: bytes => b.toNat + 256 * ofLittleEndian bytes

/-- The bytes of a length. -/
def writeLength (n : Nat) : List UInt8 :=
  if n < 251 then [Text.byte n]
  else if n < Nat.pow 2 16 then 251 :: littleEndian n 2
  else if n < Nat.pow 2 32 then 252 :: littleEndian n 4
  else 253 :: littleEndian n 8

/-- The bytes of a text behind their length. -/
def writeText (text : String) : List UInt8 :=
  let bytes := Text.encodeText text
  writeLength bytes.length ++ bytes

/-- The bytes of an optional text. -/
def writeOptional : Option String → List UInt8
  | none => [0]
  | some text => 1 :: writeText text

/-- The bytes of a diagnostic. -/
def writeDiagnostic (diagnostic : Diagnostic) : List UInt8 :=
  writeOptional diagnostic.nodeId ++ writeText diagnostic.message

/-- The bytes of a list of diagnostics behind its length. -/
def writeDiagnostics (diagnostics : List Diagnostic) : List UInt8 :=
  writeLength diagnostics.length ++ diagnostics.flatMap writeDiagnostic

/-- The bytes of a compiled program. -/
def encode (script : Script) : List UInt8 :=
  writeText script.fileId ++ writeText script.source ++ writeDiagnostics script.warnings

/-- Take something from the front of a byte list. -/
abbrev Reader (α : Type) := List UInt8 → Except Fault (α × List UInt8)

/-- Take a given count of bytes. -/
def readBytes (count : Nat) : Reader (List UInt8) := fun bytes =>
  if bytes.length < count then .error (.cut (count - bytes.length))
  else .ok (bytes.take count, bytes.drop count)

/-- Take a number of a given count of bytes. -/
def readNumber (count : Nat) : Reader Nat := fun bytes => do
  let (digits, rest) ← readBytes count bytes
  return (ofLittleEndian digits, rest)

/-- Take a length. -/
def readLength (measured : Measured) : Reader Nat := fun bytes => do
  let (mark, rest) ← readNumber 1 bytes
  if mark < 251 then return (mark, rest)
  else if mark = 251 then readNumber 2 rest
  else if mark = 252 then readNumber 4 rest
  else if mark = 253 then readNumber 8 rest
  else if mark = 254 then throw (.wideLength measured)
  else throw (.reservedLength measured)

/-- The most bytes that a length takes, its mark included. -/
def longestLength : Nat := 9

/-- A text whose length stands at the front of the bytes. -/
def measuredText (bytes : List UInt8) : Measured :=
  if bytes.length < longestLength then .textNearEnd else .text

/-- Take a text. -/
def readText : Reader String := fun bytes => do
  let (length, rest) ← readLength (measuredText bytes) bytes
  let (content, rest) ← readBytes length rest
  match Text.decodeText content with
  | .ok text => return (text, rest)
  | .error fault => throw (.notText fault)

/-- Take an optional text. -/
def readOptional : Reader (Option String) := fun bytes => do
  let (mark, rest) ← readNumber 1 bytes
  if mark = 0 then return (none, rest)
  else if mark = 1 then
    let (text, rest) ← readText rest
    return (some text, rest)
  else throw (.unknownOption mark)

/-- Take a diagnostic. -/
def readDiagnostic : Reader Diagnostic := fun bytes => do
  let (nodeId, rest) ← readOptional bytes
  let (message, rest) ← readText rest
  return (⟨nodeId, message⟩, rest)

/-- Take a given count of diagnostics. -/
def readDiagnostics : Nat → Reader (List Diagnostic)
  | 0, bytes => .ok ([], bytes)
  | count + 1, bytes => do
    let (diagnostic, rest) ← readDiagnostic bytes
    let (diagnostics, rest) ← readDiagnostics count rest
    return (diagnostic :: diagnostics, rest)

/-- The compiled program at the front of a byte list. -/
def decode (bytes : List UInt8) : Except Fault Script := do
  let (fileId, rest) ← readText bytes
  let (source, rest) ← readText rest
  let (count, rest) ← readLength .list rest
  let (warnings, _) ← readDiagnostics count rest
  return ⟨fileId, source, warnings⟩

/-- Why a file could not be used. -/
inductive FileFault where
  | missing
  /-- A path that leads to a folder, one that leads through a file, and one with a long name. -/
  | isFolder
  | notFolder
  | longName
  | other (reason : String)
  deriving DecidableEq

/-- The wording of a fault of a file. -/
def FileFault.message : FileFault → String
  | .missing => "No such file or directory (os error 2)"
  | .isFolder => "Is a directory (os error 21)"
  | .notFolder => "Not a directory (os error 20)"
  | .longName => "File name too long (os error 36)"
  | .other reason => reason

/-- Why an artifact could not be saved or loaded. -/
inductive Error where
  | notCreated (path : String) (fault : FileFault)
  | notOpened (path : String) (fault : FileFault)
  | notDecoded (fault : Fault)

/-- The wording of an error. -/
def Error.message : Error → String
  | .notCreated path fault =>
    "Artifact error: Could not create file '" ++ path ++ "': " ++ fault.message
  | .notOpened path fault =>
    "Artifact error: Could not open file '" ++ path ++ "': " ++ fault.message
  | .notDecoded fault => "Artifact error: Deserialization failed: " ++ fault.message

/-- The compiled program of the bytes of a file, if the file could be opened. -/
def load (path : String) (contents : Except FileFault (List UInt8)) : Except Error Script :=
  match contents with
  | .error fault => .error (.notOpened path fault)
  | .ok bytes =>
    match decode bytes with
    | .ok script => .ok script
    | .error fault => .error (.notDecoded fault)

end TickScript.Artifact
