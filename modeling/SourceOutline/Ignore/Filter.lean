import SourceOutline.Files.Tree
import SourceOutline.Ignore.Rules

/-
  What a scan passes over: the rules of the directory that it starts from, directories that hold
  nothing of interest, and the patterns of the settings.
-/

namespace SourceOutline.Ignore

/-- Directories never worth a look. -/
def defaultPatterns : List String :=
  ["target/", "node_modules/", "venv/", ".venv/", "vendor/", "dist/", "build/", "__pycache__/",
    ".git/"]

/-- Rules for the paths under a root. -/
structure Filter where
  root : String
  rules : Rules

namespace Filter

/-- The rules in a file, none if there is no such file. -/
def fileRules (files : FileSystem) (path : String) : Rules :=
  match files.read path with
  | .ok content => .ofFile content
  | .error _ => []

def new (files : FileSystem) (root : String) (exclude : List String) : Filter where
  root := root
  rules := Rules.usable (fileRules files (Path.join root ".gitignore")
    ++ fileRules files (Path.join root ".ignore") ++ .ofLines defaultPatterns ++ .ofLines exclude)

/-- A path seen from the root; one that is not below the root is left as it is. -/
def relative (root path : String) : String :=
  let path := Path.dropDot path
  let root := Path.dropDot root
  if Path.isCurrent root ∨ '/' ∉ path.toList then path
  else
    match Path.dropText? root path with
    | none => path
    | some rest => (Path.dropText? "/" rest).getD rest

def isIgnored (f : Filter) (path : String) (isDir : Bool) : Bool :=
  f.rules.verdict (relative f.root path) isDir = .ignored

end Filter

end SourceOutline.Ignore
