/-!
# Options of the command line

The command line names a graph file and says what to do with the result. The value of an option
stands behind it or is the next argument. An option whose value would be the next argument is
finished only when another option is taken or the arguments end. So an unknown argument is refused
before a value that is missing or given twice.
-/

namespace TickScript.Cli

/-- What the command line asks for. -/
structure Options where
  graphPath : Option String := none
  /-- Where the script goes; to standard output if nowhere else. -/
  output : Option String := none
  artifact : Option String := none
  emitIr : Bool := false
  denyWarnings : Bool := false
  verbosity : Nat := 0

/-- An option that takes a value. -/
inductive ValueOption where
  | output
  | artifact
  deriving DecidableEq

/-- An option with a value as a message shows it. -/
def ValueOption.describe : ValueOption → String
  | .output => "--output <OUTPUT>"
  | .artifact => "--artifact <ARTIFACT>"

/-- An option that takes no value. -/
inductive Flag where
  | emitIr
  | denyWarnings
  | verbose
  | help
  | version
  deriving DecidableEq

/-- An option without a value as a message shows it. -/
def Flag.describe : Flag → String
  | .emitIr => "--emit-ir"
  | .denyWarnings => "--deny-warnings"
  | .verbose => "--verbose..."
  | .help => "--help"
  | .version => "--version"

/-- An option of the command line. -/
inductive Switch where
  | value (option : ValueOption)
  | flag (flag : Flag)
  deriving DecidableEq

/-- The option of a long name. -/
def Switch.ofName? (name : String) : Option Switch :=
  if name = "output" then some (.value .output)
  else if name = "artifact" then some (.value .artifact)
  else if name = "emit-ir" then some (.flag .emitIr)
  else if name = "deny-warnings" then some (.flag .denyWarnings)
  else if name = "verbose" then some (.flag .verbose)
  else if name = "help" then some (.flag .help)
  else if name = "version" then some (.flag .version)
  else none

/-- The option of a letter. -/
def Switch.ofLetter? : Char → Option Switch
  | 'o' => some (.value .output)
  | 'v' => some (.flag .verbose)
  | 'h' => some (.flag .help)
  | 'V' => some (.flag .version)
  | _ => none

/-- Why a command line cannot be used. -/
inductive UsageError where
  | unexpected (argument : String)
  | unexpectedValue (flag : Flag) (value : String)
  | missingValue (option : ValueOption)
  | repeated (option : String)
  | missingPath

/-- The wording of a usage error. -/
def UsageError.message : UsageError → String
  | .unexpected argument => "unexpected argument '" ++ argument ++ "' found"
  | .unexpectedValue flag value =>
    "unexpected value '" ++ value ++ "' for '" ++ flag.describe ++
      "' found; no more were expected"
  | .missingValue option =>
    "a value is required for '" ++ option.describe ++ "' but none was supplied"
  | .repeated option => "the argument '" ++ option ++ "' cannot be used multiple times"
  | .missingPath => "the following required arguments were not provided:\n  <GRAPH_PATH>"

/-- Why no graph is compiled: the command line is wrong, or asks about the program itself. -/
inductive Detour where
  | error (error : UsageError)
  /-- Help was asked for, in full or in short. -/
  | help (full : Bool)
  | version

/-- The options read so far. -/
structure Parse where
  options : Options := {}
  /-- The latest option that takes a value, and its value if that has come. -/
  pending : Option (ValueOption × Option String) := none
  /-- Whether only paths follow. -/
  onlyPaths : Bool := false

namespace Parse

/-- Give an option its value. -/
def setValue (parse : Parse) (option : ValueOption) (value : String) : Except Detour Parse :=
  let options := parse.options
  match option with
  | .output =>
    if options.output.isSome then .error (.error (.repeated option.describe))
    else .ok { parse with options := { options with output := some value }, pending := none }
  | .artifact =>
    if options.artifact.isSome then .error (.error (.repeated option.describe))
    else .ok { parse with options := { options with artifact := some value }, pending := none }

/-- Finish the latest option that takes a value. -/
def settle (parse : Parse) : Except Detour Parse :=
  match parse.pending with
  | none => .ok parse
  | some (option, none) => .error (.error (.missingValue option))
  | some (option, some value) => parse.setValue option value

/-- Take an option with its value. -/
def attach (parse : Parse) (option : ValueOption) (value : String) : Except Detour Parse := do
  let parse ← parse.settle
  parse.setValue option value

/-- Take an option whose value comes next. -/
def await (parse : Parse) (option : ValueOption) : Except Detour Parse := do
  let parse ← parse.settle
  return { parse with pending := some (option, none) }

/-- Set a flag of the options. Help is given in full when it is asked for by name. -/
def setFlag (parse : Parse) (flag : Flag) (named : Bool) : Except Detour Parse :=
  let options := parse.options
  match flag with
  | .emitIr =>
    if options.emitIr then .error (.error (.repeated flag.describe))
    else .ok { parse with options := { options with emitIr := true } }
  | .denyWarnings =>
    if options.denyWarnings then .error (.error (.repeated flag.describe))
    else .ok { parse with options := { options with denyWarnings := true } }
  | .verbose => .ok { parse with options := { options with verbosity := options.verbosity + 1 } }
  | .help => .error (.help named)
  | .version => .error .version

/-- Take an option without a value. -/
def takeFlag (parse : Parse) (flag : Flag) (named : Bool) : Except Detour Parse := do
  let parse ← parse.settle
  parse.setFlag flag named

/-- Take the path of the graph. -/
def takePath (parse : Parse) (path : String) : Except Detour Parse :=
  if parse.options.graphPath.isSome then .error (.error (.unexpected path))
  else do
    let parse ← parse.settle
    return { parse with options := { parse.options with graphPath := some path } }

/-- Take a group of letters. What follows a letter that takes a value is the value, with or without
an equals sign before it. -/
def takeLetters (parse : Parse) : List Char → Except Detour Parse
  | [] => .ok parse
  | c :: rest =>
    match Switch.ofLetter? c, rest with
    | none, _ => .error (.error (.unexpected (String.ofList ['-', c])))
    | some (.flag flag), _ => do
      let parse ← parse.takeFlag flag false
      parse.takeLetters rest
    | some (.value option), [] => parse.await option
    | some (.value option), '=' :: value => parse.attach option (String.ofList value)
    | some (.value option), value => parse.attach option (String.ofList value)

/-- Take a long name with what stands behind an equals sign. -/
def takeName (parse : Parse) (text : List Char) : Except Detour Parse :=
  let name := String.ofList (text.takeWhile (· ≠ '='))
  match Switch.ofName? name, text.dropWhile (· ≠ '=') with
  | none, _ => .error (.error (.unexpected ("--" ++ name)))
  | some (.value option), [] => parse.await option
  | some (.value option), _ :: value => parse.attach option (String.ofList value)
  | some (.flag flag), [] => parse.takeFlag flag true
  | some (.flag flag), _ :: value =>
    .error (.error (.unexpectedValue flag (String.ofList value)))

/-- Take one argument. A value does not begin with a dash, unless it is just that; only paths follow
two dashes. -/
def takeArgument (parse : Parse) (text : String) : Except Detour Parse :=
  match parse.onlyPaths, text.toList, parse.pending with
  | true, _, _ => parse.takePath text
  | false, ['-', '-'], _ => .ok { parse with onlyPaths := true }
  | false, '-' :: '-' :: name, _ => parse.takeName name
  | false, '-' :: c :: letters, _ => parse.takeLetters (c :: letters)
  | false, _, some (option, none) => .ok { parse with pending := some (option, some text) }
  | false, _, _ => parse.takePath text

end Parse

/-- The options of a list of arguments. -/
def Options.ofArguments (arguments : List String) : Except Detour Options := do
  let parse ← arguments.foldlM Parse.takeArgument {}
  let parse ← parse.settle
  if parse.options.graphPath.isNone then throw (.error .missingPath)
  return parse.options

end TickScript.Cli
