import TickScript.Keyed
import TickScript.Text.Quoted

/-!
# Imports

A script imports symbols from modules, each under an alias of its own. The first symbol of a name
keeps it; a later one of the same name gets a number. Two tables hold the same facts: the aliases by
module and symbol, and the symbols by alias.
-/

namespace TickScript.Emission

/-- The imports of a script. -/
structure Imports where
  modules : Keyed String (Keyed String String) := .empty
  /-- The module and the symbol that an alias stands for. -/
  taken : Keyed String (String × String) := .empty

namespace Imports

/-- The alias of a symbol of a module. -/
def localName? (imports : Imports) (module symbol : String) : Option String := do
  let symbols ← imports.modules.get? module
  symbols.get? symbol

/-- The number of imported symbols. -/
def size (imports : Imports) : Nat := imports.taken.size

/-- Whether nothing is imported. -/
def isEmpty (imports : Imports) : Bool := imports.modules.isEmpty

/-- The name of a symbol with a number behind it; zero leaves the name alone. -/
def numbered (symbol : String) : Nat → String
  | 0 => symbol
  | number + 1 => symbol ++ "_" ++ Nat.repr (number + 1)

/-- The first numbered name that is free, from a number on. -/
def freeName (imports : Imports) (symbol : String) : Nat → Nat → String
  | 0, number => numbered symbol number
  | budget + 1, number =>
    if imports.taken.contains (numbered symbol number) then
      freeName imports symbol budget (number + 1)
    else numbered symbol number

/-- The alias for a new symbol. Of one more numbered names than there are aliases, one is free. -/
def newName (imports : Imports) (symbol : String) : String :=
  imports.freeName symbol imports.taken.size 0

/-- Import a symbol under a given alias. -/
def insert (imports : Imports) (module symbol localName : String) : Imports where
  modules :=
    let symbols := (imports.modules.get? module).getD .empty
    imports.modules.insert module (symbols.insert symbol localName)
  taken := imports.taken.insert localName (module, symbol)

/-- The alias of a symbol, which is imported if it was not before. -/
def require (imports : Imports) (symbol module : String) : String × Imports :=
  match imports.localName? module symbol with
  | some localName => (localName, imports)
  | none =>
    let localName := imports.newName symbol
    (localName, imports.insert module symbol localName)

/-- Add one import of another script part, under its alias if that is free. -/
def mergeOne (imports : Imports) (module symbol localName : String) : Imports :=
  if (imports.localName? module symbol).isSome then imports
  else if imports.taken.contains localName then (imports.require symbol module).2
  else imports.insert module symbol localName

/-- The imports as triples of module, symbol and alias, in order. -/
def toList (imports : Imports) : List (String × String × String) :=
  imports.modules.entries.flatMap fun (module, symbols) =>
    symbols.entries.map fun (symbol, localName) => (module, symbol, localName)

/-- Add every import of another script part. -/
def merge (imports other : Imports) : Imports :=
  other.toList.foldl
    (fun imports (module, symbol, localName) => imports.mergeOne module symbol localName) imports

/-- A symbol with its alias, if the two differ. -/
def clause (symbol localName : String) : String :=
  if symbol = localName then symbol else symbol ++ " as " ++ localName

/-- One import statement per module, in order. -/
def lines (imports : Imports) : List String :=
  imports.modules.entries.map fun (module, symbols) =>
    let clauses := symbols.entries.map fun (symbol, localName) => clause symbol localName
    "import \x7b " ++ ", ".intercalate clauses ++ " \x7d from " ++ Text.quote module ++ ";"

end Imports

end TickScript.Emission
