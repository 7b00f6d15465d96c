import SourceOutline.Command.Help
import SourceOutline.Display.Messages
import SourceOutline.Display.Table
import SourceOutline.Json.Printer
import SourceOutline.Metamodel.Codec
import SourceOutline.Outline.Codec
import SourceOutline.Outline.Lines
import SourceOutline.Scan.Report
import SourceOutline.Settings.Store

/-
  Running commands. A command sees the files, how its output is shown, how sources are parsed, the
  node types of the built-in grammars and the format of settings; it gives what it prints and the
  files it leaves.
-/

namespace SourceOutline

/-- Why a command fails. -/
inductive CommandFault where
  | settings (f : SettingsFault)
  | unknownLanguage (name : String)
  | unknownEntity (grammar name : String)
  | noGrammar (path : String)
  | source (f : SourceFault)

namespace CommandFault

def message : CommandFault → String
  | .settings f => f.message
  | .unknownLanguage name => s!"unknown language '{name}'"
  | .unknownEntity grammar name => s!"{grammar} has no entity '{name}'"
  | .noGrammar path => s!"no grammar handles {path}"
  | .source f => f.message

def cause? : CommandFault → Option String
  | .source f => f.cause?
  | _ => none

/-- The text for the error stream; a cause stands below the message. -/
def text (f : CommandFault) : String :=
  let cause := match f.cause? with
    | some c => s!"\nCaused by:\n    {c}\n"
    | none => ""
  s!"Error: {f.message}\n" ++ cause

end CommandFault

/-- What a command works on. -/
structure Surroundings where
  files : FileSystem
  user : Ignore.UserDirs
  display : Display
  parse : SourceParser
  types : Language → List NodeType
  /-- How settings files are written and read. -/
  toml : Toml.Format

/-- What a call leaves behind. -/
structure RunResult where
  exit : Nat
  printed : List Printed
  files : FileSystem
  /-- The paths of the files that were written. -/
  written : List String

namespace RunResult

def stdout (r : RunResult) : String :=
  String.join (r.printed.filterMap fun
    | .out s => some s
    | .err _ => none)

def stderr (r : RunResult) : String :=
  String.join (r.printed.filterMap fun
    | .out _ => none
    | .err s => some s)

end RunResult

namespace Surroundings

def registry (w : Surroundings) (s : Settings) : Registry := s.narrow (.builtin w.types)

def listEntities (w : Surroundings) (s : Settings) (language : String) (entity : Option String)
    (json : Bool) : Except CommandFault (List Printed) := do
  let some g := (w.registry s).findByName? language | throw (.unknownLanguage language)
  let es ← match entity with
    | none => pure g.metamodel.entities
    | some name =>
      match g.metamodel.entity? name with
      | some e => pure [e]
      | none => throw (.unknownEntity g.name name)
  if json then pure [.line (Json.array (es.map Entity.toJson)).pretty]
  else
    pure (w.display.header s!"{g.name} entities: {es.length}" ++ [.line (Table.entities es)])

def showOutline (w : Surroundings) (s : Settings) (path : String) (depth : Option Nat)
    (json : Bool) : Except CommandFault (List Printed) := do
  let some g := (w.registry s).findForPath? path | throw (.noGrammar path)
  match g.outlineOfFile w.parse (depth.or s.maxDepth) w.files path with
  | .error f => throw (.source f)
  | .ok o =>
    if json then pure [.line o.toJson.pretty]
    else
      pure (w.display.file path g.name ++ (o.lines w.display.theme 0 "").map Printed.line)

def showReport (d : Display) (path : String) (r : ScanReport) : List Printed :=
  let stats := [("Files", r.files.length), ("Elements", r.totalElements),
    ("Failed", r.failures.length), ("Skipped", r.skipped)]
  d.header s!"Scanning {path}"
    ++ r.files.flatMap (fun f => d.file f.path s!"{f.elements} elements ({f.grammar})")
    ++ r.failures.flatMap (fun f => d.error s!"{f.1}: {f.2}")
    ++ d.sectionTitle "Summary"
    ++ [.line (Table.stats (stats.map fun (label, n) => (label, toString n)))]
    ++ if r.failures.isEmpty then d.success "Scan complete"
      else d.warning s!"{r.failures.length} files could not be wrapped"

/-- The settings to start from name all built-in languages. -/
def initialSettings : Settings :=
  { Settings.empty with languages := some (Language.all.map Language.key) }

def runCommand (w : Surroundings) (i : Invocation) : Except CommandFault RunResult := do
  let path := i.settings.getD Settings.defaultPath
  let s ← match Settings.load w.toml w.files path with
    | .ok s => pure (s.getD ∅)
    | .error f => throw (.settings f)
  match i.command with
  | .entities language entity json =>
    pure ⟨0, ← w.listEntities s language entity json, w.files, []⟩
  | .outline file depth json => pure ⟨0, ← w.showOutline s file depth json, w.files, []⟩
  | .scan root =>
    let report := scan w.files w.user root (w.registry s) w.parse s
    pure ⟨0, showReport w.display root report, w.files, []⟩
  | .init force =>
    match Settings.write w.toml w.files path initialSettings force with
    | .ok files => pure ⟨0, w.display.success s!"Wrote {path}", files, [path]⟩
    | .error f => throw (.settings f)

/-- The name of the program with its version. -/
def versionText : String := "treeplus 0.0.1"

/-- Runs the program on the words of its command line. The exit code is 1 if the command fails, and
    2 if the words ask for none. -/
def run (w : Surroundings) (words : List String) : RunResult :=
  match Request.ofWords? words with
  | none => ⟨2, [], w.files, []⟩
  | some .version => ⟨0, [.line versionText], w.files, []⟩
  | some (.help command long) => ⟨0, (Help.lines command long).map Printed.line, w.files, []⟩
  | some (.run i) =>
    match w.runCommand i with
    | .ok r => r
    | .error f => ⟨1, [.err f.text], w.files, []⟩

end Surroundings

end SourceOutline
