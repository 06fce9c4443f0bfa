import TickScript.Cli.Options

/-!
# Help

What the program says about itself: a summary with a line for each option, and a manual with a
paragraph for each.
-/

namespace TickScript.Cli

/-- An argument or an option, and what it is for. -/
structure HelpEntry where
  /-- The name, behind the letter or the room for one. -/
  label : String
  purpose : String
  /-- What only the manual says. -/
  details : List String := []

namespace HelpEntry

/-- The label, filled up to a width. -/
def paddedLabel (entry : HelpEntry) (width : Nat) : String :=
  entry.label ++ String.ofList (List.replicate (width - entry.label.length) ' ')

/-- The line of a summary. -/
def line (width : Nat) (entry : HelpEntry) : String :=
  "  " ++ entry.paddedLabel width ++ "  " ++ entry.purpose ++ "\n"

/-- The lines of a manual. -/
def lines (entry : HelpEntry) : String :=
  let indent := "          "
  let purpose := if entry.details.isEmpty then entry.purpose else entry.purpose ++ "."
  let paragraphs := (purpose :: entry.details).map (indent ++ · ++ "\n")
  "  " ++ entry.label ++ "\n" ++ (indent ++ "\n").intercalate paragraphs

end HelpEntry

namespace Help

/-- The name of the program and its version. -/
def version : String := "sakusen 0.1.0\n"

/-- What both kinds of help begin with. -/
def opening : String :=
  "A compiler that turns node-based unit behaviour graphs into tick-driven game scripts\n\n" ++
    "Usage: sakusen-cli [OPTIONS] <GRAPH_PATH>\n"

/-- The arguments without a name. -/
def arguments : List HelpEntry :=
  [⟨"<GRAPH_PATH>", "Path to the editor's graph JSON file", []⟩]

/-- The options. The purpose of the last but one depends on the kind of help. -/
def options (help : String) : List HelpEntry :=
  [⟨"-o, " ++ ValueOption.output.describe, "Write the script here instead of stdout", []⟩,
    ⟨"    " ++ ValueOption.artifact.describe,
      "Also save the compiled program as a bincode artifact", []⟩,
    ⟨"    " ++ Flag.emitIr.describe, "Print the intermediate representation as JSON and exit",
      ["The dump is for inspection only: JSON has no `undefined`, so unset literals are written " ++
        "as `null` and map keys come out sorted."]⟩,
    ⟨"    " ++ Flag.denyWarnings.describe, "Treat warnings as errors", []⟩,
    ⟨"-v, " ++ Flag.verbose.describe, "Increase log verbosity (-v info, -vv debug)", []⟩,
    ⟨"-h, " ++ Flag.help.describe, "Print help (" ++ help ++ ")", []⟩,
    ⟨"-V, " ++ Flag.version.describe, "Print version", []⟩]

/-- The widest label. -/
def width (entries : List HelpEntry) : Nat :=
  entries.foldl (fun width entry => Nat.max width entry.label.length) 0

/-- The entries of a summary below their heading. -/
def summarySection (heading : String) (entries : List HelpEntry) : String :=
  "\n" ++ heading ++ ":\n" ++ String.join (entries.map (HelpEntry.line (width entries)))

/-- The entries of a manual below their heading. -/
def manualSection (heading : String) (entries : List HelpEntry) : String :=
  "\n" ++ heading ++ ":\n" ++ "\n".intercalate (entries.map HelpEntry.lines)

/-- The summary. -/
def summary : String :=
  opening ++ summarySection "Arguments" arguments ++
    summarySection "Options" (options "see more with '--help'")

/-- The manual. -/
def manual : String :=
  opening ++ manualSection "Arguments" arguments ++
    manualSection "Options" (options "see a summary with '-h'")

end Help

end TickScript.Cli
