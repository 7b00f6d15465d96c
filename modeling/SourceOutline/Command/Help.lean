import SourceOutline.Command.Basic

/-
  Descriptions of the program and its commands.
-/

namespace SourceOutline

namespace OptionSpec

/-- How the value of an option is written. -/
def placeholder (o : OptionSpec) : String :=
  "<" ++ String.ofList (o.name.toList.map Char.toUpper) ++ ">"

def label (o : OptionSpec) : String :=
  let letter := match o.letter with
    | some c => s!"-{c}, "
    | none => "    "
  let value := if o.takesValue then " " ++ o.placeholder else ""
  letter ++ "--" ++ o.name ++ value

end OptionSpec

namespace Help

/-- Rows of two columns under a title. -/
def table (title : String) (rows : List (String × String)) : List String :=
  let widest := rows.foldr (fun r n => max r.1.length n) 0
  let pad (s : String) := s ++ String.ofList (List.replicate (widest - s.length) ' ')
  title :: rows.map fun r => "  " ++ pad r.1 ++ "  " ++ r.2

/-- The same with the second column below the first, and empty lines between. -/
def spacedTable (title : String) (rows : List (String × String)) : List String :=
  title :: [""].intercalate (rows.map fun r => ["  " ++ r.1, "          " ++ r.2])

def optionRows (options : List OptionSpec) : List (String × String) :=
  options.map fun o => (o.label, o.about)

def helpAbout : String := "Print this message or the help of the given subcommand(s)"

def commandTable : List String :=
  table "Commands:"
    (CommandSpec.all.map (fun c => (c.name, c.about)) ++ [("help", helpAbout)])

def usage (rest : String) : String := "Usage: treeplus " ++ rest

def about : String := "Grammar-independent element model over tree-sitter parse trees"

def longAbout : List String :=
  ["Treeplus wraps tree-sitter parse trees in a uniform element model of",
    "entities, properties and relations derived from each grammar, and lists",
    "every node's values in source order.",
    "",
    "Example usage:",
    "  treeplus entities --language python",
    "  treeplus show src/app.py --depth 3",
    "  treeplus scan --path ./src"]

/-- Parts with an empty line between two of them. -/
def join (parts : List (List String)) : List String :=
  [""].intercalate (parts.filter (· ≠ []))

/-- The description of the program. -/
def program (long : Bool) : List String :=
  let call := usage "[OPTIONS] <COMMAND>"
  let options (helpAbout : String) := optionRows (CommandSpec.topOptions helpAbout)
  if long then
    join [longAbout, [call], commandTable,
      spacedTable "Options:" (options "Print help (see a summary with '-h')")]
  else
    join [[about], [call], commandTable,
      table "Options:" (options "Print help (see more with '--help')")]

def command (c : CommandSpec) : List String :=
  let places := c.places.map fun p => (p.placeholder, p.about)
  join [[c.about], [usage (c.name ++ " " ++ c.usage)],
    if places.isEmpty then [] else table "Arguments:" places,
    table "Options:" (optionRows c.options)]

/-- The description of descriptions. -/
def onHelp : List String :=
  join [[helpAbout], [usage "help [COMMAND]..."],
    table "Arguments:" [("[COMMAND]...", "Print help for the subcommand(s)")]]

/-- The lines that describe a command, or the program. -/
def lines (name : Option String) (long : Bool) : List String :=
  match name with
  | none => program long
  | some name =>
    match CommandSpec.find? name with
    | some c => command c
    | none => onHelp

end Help

end SourceOutline
