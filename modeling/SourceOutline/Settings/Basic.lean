import SourceOutline.Json.Record
import SourceOutline.Toml.Format

/-
  Settings, and their forms as TOML and as JSON.

  A settings file holds the keys `languages`, `exclude` and `max_depth`; a key that is not set is
  left out. Reading skips all other keys.
-/

namespace SourceOutline

structure Settings where
  /-- The grammars in use, by name; all of them if unset. -/
  languages : Option (List String)
  /-- Patterns of files that are passed over. -/
  exclude : List String
  /-- How deep outlines go where nothing else is asked for. -/
  maxDepth : Option Nat
deriving DecidableEq

namespace Settings

def empty : Settings := ⟨none, [], none⟩

instance : EmptyCollection Settings := ⟨empty⟩

/-! ## TOML -/

/-- The table of a settings file. -/
def toTable (s : Settings) : Toml.Entries :=
  (s.languages.map fun l => ("languages", .ofStrings l)).toList
    ++ [("exclude", .ofStrings s.exclude)]
    ++ (s.maxDepth.map fun d => ("max_depth", .integer d)).toList

/-- The text of a settings file; none if the depth is too large for one. -/
def toToml? (toml : Toml.Format) (s : Settings) : Option String := toml.write? s.toTable

def depth? : Toml → Option Nat
  | .integer n => if 0 ≤ n then some n.toNat else none
  | _ => none

/-- A key that may be missing. -/
def optional? {α : Type} (read : Toml → Option α) (v : Option Toml) : Option (Option α) :=
  match v with
  | none => some none
  | some v => (read v).map some

def ofTable? (entries : Toml.Entries) : Option Settings := do
  pure
    { languages := ← optional? Toml.strings? (Toml.get? entries "languages")
      exclude := (← optional? Toml.strings? (Toml.get? entries "exclude")).getD []
      maxDepth := ← optional? depth? (Toml.get? entries "max_depth") }

def ofToml? (toml : Toml.Format) (text : String) : Option Settings :=
  (toml.read? text).bind ofTable?

/-! ## JSON -/

def jsonFields : List Json.Field := [⟨"languages", false⟩, ⟨"exclude", true⟩, ⟨"max_depth", false⟩]

def ofJson? (j : Json) : Option Settings := do
  match ← j.fields? jsonFields with
  | [languages, exclude, maxDepth] =>
    pure
      { languages := ← Json.orElse? none (·.nullable? (·.listOf? Json.string?)) languages
        exclude := ← Json.orElse? [] (·.listOf? Json.string?) exclude
        maxDepth := ← Json.orElse? none (·.nullable? Json.word?) maxDepth }
  | _ => none

def toJson (s : Settings) : Json :=
  .object [("languages", .ofOption .strings s.languages), ("exclude", .strings s.exclude),
    ("max_depth", .ofOption .nat s.maxDepth)]

end Settings

end SourceOutline
