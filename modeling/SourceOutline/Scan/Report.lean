import SourceOutline.Ignore.Personal
import SourceOutline.Ignore.Walk
import SourceOutline.Scan.Source
import SourceOutline.Settings.Basic

/-
  Scanning a directory: every file that some grammar handles is outlined, and the report says what
  came of it. A file that fails does not stop the scan.
-/

namespace SourceOutline

structure FileReport where
  path : String
  grammar : String
  /-- The number of elements in its outline. -/
  elements : Nat
deriving DecidableEq

@[ext] structure ScanReport where
  files : List FileReport
  /-- Paths with what went wrong. -/
  failures : List (String × String)
  /-- The number of files that no grammar handles. -/
  skipped : Nat
deriving DecidableEq

namespace ScanReport

instance : EmptyCollection ScanReport := ⟨⟨[], [], 0⟩⟩

instance : Append ScanReport :=
  ⟨fun a b => ⟨a.files ++ b.files, a.failures ++ b.failures, a.skipped + b.skipped⟩⟩

def totalElements (r : ScanReport) : Nat := r.files.foldr (fun f n => f.elements + n) 0

/-- A report with one more file or other entry taken into account. -/
def add (registry : Registry) (parse : SourceParser) (report : ScanReport) :
    WalkEntry → ScanReport
  | .other _ => report
  | .file path content =>
    match registry.findForPath? path with
    | none => { report with skipped := report.skipped + 1 }
    | some g =>
      match g.outlineOfRead parse none path content with
      | .ok o => { report with files := report.files ++ [⟨path, g.name, o.count⟩] }
      | .error f => { report with failures := report.failures ++ [(path, f.fullMessage)] }

def ofEntries (registry : Registry) (parse : SourceParser) (entries : List WalkEntry) :
    ScanReport :=
  entries.foldl (add registry parse) ∅

end ScanReport

/-- The grammars that the settings leave in use. -/
def Settings.narrow (s : Settings) (r : Registry) : Registry :=
  match s.languages with
  | none => r
  | some names => r.retain names

/-- How a scan goes through the files at and below a path. -/
def Settings.walker (s : Settings) (files : FileSystem) (user : Ignore.UserDirs) (root : String) :
    Ignore.Walker :=
  let filter := Ignore.Filter.new files root s.exclude
  ⟨files, user.rules files, fun path isDir => !filter.isIgnored path isDir⟩

/-- Outlines every file at or below a path that is not passed over. -/
def scan (files : FileSystem) (user : Ignore.UserDirs) (root : String) (registry : Registry)
    (parse : SourceParser) (settings : Settings) : ScanReport :=
  .ofEntries registry parse ((settings.walker files user root).walk root)

end SourceOutline
