import SourceOutline.Scan.Source
import SourceOutline.SyntaxTree.Codec

/-
  What parsers bring along: the node types of the built-in languages, and the parse trees of files
  by their paths.
-/

namespace SourceOutline

structure Supplies where
  types : Language → List NodeType
  trees : List (String × SyntaxTree)

namespace Supplies

def empty : Supplies := ⟨fun _ => [], []⟩

/-- Whether a path has an extension of the language with this name. -/
def isSourceOf (language path : String) : Bool :=
  Language.all.any fun l => l.name = language && (Path.extension? path).any (· ∈ l.extensions)

/-- A text is parsed as the file of that language with the same text. -/
def parser (s : Supplies) (files : FileSystem) : SourceParser := fun g text =>
  match s.trees.find? fun t =>
    isSourceOf g.name t.1 && (files.readText t.1).toOption = some text with
  | some t => .ok t.2
  | none => .error .noTree

/-! ## Reading -/

def member (j : Json) (key : String) : Json :=
  match j with
  | .object members => ((Json.valuesAt key members).getLast?).getD .null
  | _ => .null

/-- An object with the node types of some languages under `node_types` and trees by path under
    `trees`. What is missing is empty. -/
def ofJson? (j : Json) : Option Supplies := do
  let types := member j "node_types"
  let trees ← match member j "trees" with
    | .object members => members.mapM fun m => (SyntaxTree.ofJson? m.2).map fun t => (m.1, t)
    | _ => pure []
  pure ⟨fun l => (NodeTypes.ofJsonOrText? (member types l.key)).getD [], trees⟩

end Supplies

end SourceOutline
