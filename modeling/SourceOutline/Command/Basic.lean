import SourceOutline.Command.Options

/-
  The commands of the program and how they are called.
-/

namespace SourceOutline

inductive Command where
  /-- Lists the entities of a grammar, or one of them. -/
  | entities (language : String) (entity : Option String) (json : Bool)
  /-- Shows the outline of a file. -/
  | outline (file : String) (depth : Option Nat) (json : Bool)
  | scan (path : String)
  /-- Writes settings to start from. -/
  | init (force : Bool)
deriving DecidableEq

structure Invocation where
  /-- The settings file, if not the usual one. -/
  settings : Option String
  command : Command
deriving DecidableEq

/-- A call of the program. -/
inductive Request where
  | version
  /-- A description of a command, or of the program, in full or in short. -/
  | help (command : Option String) (long : Bool)
  | run (i : Invocation)
deriving DecidableEq

/-- How a command is called. -/
structure CommandSpec where
  name : String
  about : String
  /-- What its call looks like after its name. -/
  usage : String
  /-- In the order in which they are described. -/
  options : List OptionSpec
  /-- Words that are no options. -/
  places : List OptionSpec

namespace CommandSpec

/-! ## Options -/

def verbose : OptionSpec := ⟨"verbose", some 'v', .flag, "Enable verbose logging"⟩

def settings : OptionSpec := ⟨"config", some 'c', .path, "Path to the config file"⟩

def helpOption (about : String) : OptionSpec := ⟨"help", some 'h', .help, about⟩

def shortHelp : OptionSpec := helpOption "Print help"

def version : OptionSpec := ⟨"version", some 'V', .version, "Print version"⟩

def json (what : String) : OptionSpec :=
  ⟨"json", none, .flag, s!"Print JSON instead of {what}"⟩

/-- Options in front of the name of a command. Those before the last two may also follow it. -/
def topOptions (helpAbout : String) : List OptionSpec :=
  [verbose, settings, helpOption helpAbout, version]

/-! ## Commands -/

def entities : CommandSpec where
  name := "entities"
  about := "List the entities derived from a grammar"
  usage := "[OPTIONS] --language <LANGUAGE>"
  options := [⟨"language", some 'l', .text, "Grammar name (python, javascript, rust, go)"⟩, verbose,
    settings, ⟨"entity", some 'e', .text, "Show a single entity"⟩, json "a table", shortHelp]
  places := []

def outline : CommandSpec where
  name := "show"
  about := "Show a file's element tree in source order"
  usage := "[OPTIONS] <FILE>"
  options := [⟨"depth", some 'd', .number, "Maximum nesting depth to expand"⟩, verbose, settings,
    json "an outline", shortHelp]
  places := [⟨"file", none, .path, "File to parse"⟩]

def scan : CommandSpec where
  name := "scan"
  about := "Wrap every supported file in a directory"
  usage := "[OPTIONS]"
  options := [⟨"path", some 'p', .path, "Directory to scan [default: .]"⟩, verbose, settings,
    shortHelp]
  places := []

def init : CommandSpec where
  name := "init"
  about := "Write a default config file"
  usage := "[OPTIONS]"
  options := [⟨"force", none, .flag, "Overwrite an existing config"⟩, verbose, settings, shortHelp]
  places := []

def all : List CommandSpec := [entities, outline, scan, init]

def find? (name : String) : Option CommandSpec := all.find? (·.name = name)

end CommandSpec

namespace Command

/-- A command from its name and what was given. -/
def ofGiven? (name : String) (g : GivenOptions) : Option Command :=
  match name with
  | "entities" => (g.get? "language").map fun l => .entities l (g.get? "entity") (g.has "json")
  | "show" => (g.get? "file").map fun file =>
      .outline file ((g.get? "depth").bind OptionSpec.number?) (g.has "json")
  | "scan" => some (.scan ((g.get? "path").getD "."))
  | "init" => some (.init (g.has "force"))
  | _ => none

end Command

namespace Request

/-- A call for a description: of the program, or of the command that is named. -/
def helpOn? : List String → Option Request
  | [] => some (.help none true)
  | [name] =>
    if name = "help" ∨ (CommandSpec.find? name).isSome then some (.help (some name) true) else none
  | _ => none

/-- A call of a command: its name and the words after it, and what was given before it. -/
def ofCommand? (top : GivenOptions) (name : String) (words : List String) : Option Request := do
  let spec ← CommandSpec.find? name
  match Words.read spec.options spec.places false ∅ none words with
  | .help long => pure (.help (some name) long)
  | .done g =>
    let command ← Command.ofGiven? name g
    pure (.run ⟨(g.get? "config").or (top.get? "config"), command⟩)
  | _ => none

/-- What the words of a command line ask for; none if they are no such call. -/
def ofWords? (words : List String) : Option Request :=
  match Words.read (CommandSpec.topOptions "") [] true ∅ none words with
  | .version => some .version
  | .help long => some (.help none long)
  | .subcommand top name words => if name = "help" then helpOn? words else ofCommand? top name words
  | _ => none

end Request

end SourceOutline
