import SourceOutline.Files.Tree
import SourceOutline.Grammar.Registry
import SourceOutline.Outline.Descent

/-
  From the text of a source file to its outline. How a text is parsed is not said here: a parser is
  any function from a grammar and a text to a tree, or to a fault.
-/

namespace SourceOutline

/-- Why a text is not parsed. -/
inductive ParseFault where
  /-- The parser does not take the language of the grammar, and says why. -/
  | language (reason : String)
  | noTree

abbrev SourceParser := Grammar → (text : String) → Except ParseFault SyntaxTree

/-- Why there is no outline of a file. -/
inductive SourceFault where
  | reading (path : String) (f : FileFault)
  | parsing (grammar : String) (f : ParseFault)
  | element (f : Fault)

namespace SourceFault

def message : SourceFault → String
  | .reading path _ => s!"reading {path}"
  | .parsing grammar (.language reason) =>
    s!"Grammar error: Failed to set language {grammar}: {reason}"
  | .parsing grammar .noTree => s!"Parse error: {grammar} parser produced no tree"
  | .element f => f.message

def cause? : SourceFault → Option String
  | .reading _ f => some f.message
  | _ => none

/-- Message and cause on one line. -/
def fullMessage (f : SourceFault) : String :=
  match f.cause? with
  | some cause => f.message ++ ": " ++ cause
  | none => f.message

end SourceFault

namespace Grammar

/-- The outline of a source text. -/
def outline (g : Grammar) (parse : SourceParser) (limit : Option Nat) (text : String) :
    Except SourceFault Outline :=
  match parse g text with
  | .error f => .error (.parsing g.name f)
  | .ok tree =>
    let root : TreeNode ((ParsedSource.ofText text tree).context g.table) := ⟨tree⟩
    match Element.wrap g.metamodel root with
    | .error f => .error (.element f)
    | .ok e =>
      match TreeNode.outline g.metamodel limit e with
      | .error f => .error (.element f)
      | .ok o => .ok o

/-- The outline of a file, from what reading it gives. -/
def outlineOfRead (g : Grammar) (parse : SourceParser) (limit : Option Nat) (path : String) :
    Except FileFault ByteArray → Except SourceFault Outline
  | .error f => .error (.reading path f)
  | .ok content =>
    match String.fromUTF8? content with
    | none => .error (.reading path .notText)
    | some text => g.outline parse limit text

/-- The outline of a file. -/
def outlineOfFile (g : Grammar) (parse : SourceParser) (limit : Option Nat) (files : FileSystem)
    (path : String) : Except SourceFault Outline :=
  g.outlineOfRead parse limit path (files.read path)

end Grammar

end SourceOutline
