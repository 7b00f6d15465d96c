import SourceOutline.Node.Basic
import SourceOutline.SyntaxTree.Basic
import SourceOutline.Text.Quoted

/-
  The nodes of a parse tree as the library sees them. The leaves are the tokens: a node starts at
  its first leaf and stops at its last. Names are looked up in the slots of the grammar.

  Columns of tokens are in characters, so the bytes of the line before a token are counted again.
-/

namespace SourceOutline

/-- A source text with its parse tree. -/
structure ParsedSource where
  chars : List Char
  root : SyntaxTree

namespace ParsedSource

def ofText (text : String) (root : SyntaxTree) : ParsedSource := ⟨text.toList, root⟩

def size (p : ParsedSource) : Nat := Text.byteSize p.chars

def describe (p : ParsedSource) : String :=
  s!"ParsedSource \x7b root: {Text.quoted p.root.kind}, len: {p.size} \x7d"

end ParsedSource

/-- The text that nodes stand in, and the names that they answer to. -/
structure TreeContext where
  chars : List Char
  /-- The length of the text in bytes. -/
  size : Nat
  table : SlotTable

def ParsedSource.context (p : ParsedSource) (table : SlotTable) : TreeContext :=
  ⟨p.chars, p.size, table⟩

structure TreeNode (ctx : TreeContext) where
  tree : SyntaxTree

namespace TreeNode

variable (ctx : TreeContext)

/-- The text that a node covers; empty if its offsets cut a character or lie outside. -/
def sliceOf (l : TreeLabel) : String :=
  String.ofList ((Text.slice? ctx.chars l.startByte.toNat l.endByte.toNat).getD [])

/-- The column of a node in characters, or in bytes if its line cannot be cut there. -/
def charColumn (l : TreeLabel) : UInt64 :=
  let start := l.startByte.toNat
  match Text.slice? ctx.chars (start - l.column.toNat) start with
  | some before => before.length.toUInt64
  | none => l.column

def intervalOf (l : TreeLabel) : Interval := ⟨l.startByte, l.endByte⟩

/-- A leaf as a token; an empty one at the end of the text is the end of the input. -/
def tokenOf (l : TreeLabel) : Token :=
  let line := l.row + 1
  let column := charColumn ctx l
  if l.startByte = l.endByte ∧ ctx.size ≤ l.endByte.toNat then ⟨line, column, "", true⟩
  else ⟨line, column, sliceOf ctx l, false⟩

def valueOf (t : SyntaxTree) : Value := .token t.kind (sliceOf ctx t.label) (intervalOf t.label)

/-- The children in a field; unless it holds tokens, the named ones only. -/
def fieldChildren (t : SyntaxTree) (name : String) (tokens : Bool) : List SyntaxTree :=
  t.children.filter fun c => c.label.field = some name && (tokens || c.label.named)

/-- The named children outside any field whose kind is one of `kinds`. -/
def unlabelledChildren (t : SyntaxTree) (kinds : NameSet) : List SyntaxTree :=
  t.children.filter fun c => c.label.named && c.label.field.isNone && decide (c.kind ∈ kinds)

/-- What some children are to the caller: tokens are values, and one or many as declared. -/
def shapeOf (children : List SyntaxTree) (multiple tokens : Bool) : Raw (TreeNode ctx) :=
  match multiple, tokens with
  | true, true => .values (children.map (valueOf ctx))
  | false, true => .value (children.head?.map (valueOf ctx))
  | true, false => .nodes (children.map TreeNode.mk)
  | false, false => .node (children.head?.map TreeNode.mk)

def accessorOf? (t : SyntaxTree) (name : String) : Option (Raw (TreeNode ctx)) :=
  match ctx.table.accessor? t.kind name with
  | some .text => some (.value (some (valueOf ctx t)))
  | some (.children kinds multiple) =>
    some (shapeOf ctx (unlabelledChildren t kinds) multiple false)
  | _ => none

def fieldOf? (t : SyntaxTree) (name : String) : Option (Raw (TreeNode ctx)) :=
  match ctx.table.field? t.kind name with
  | some (.field multiple tokens) =>
    some (shapeOf ctx (fieldChildren t name tokens) multiple tokens)
  | _ => none

instance : SyntaxNode (TreeNode ctx) where
  rule n := n.tree.kind
  interval n := intervalOf n.tree.label
  text n := sliceOf ctx n.tree.label
  first? n := some (tokenOf ctx n.tree.firstLeaf)
  last? n :=
    if n.tree.label.startByte = n.tree.label.endByte then none
    else some (tokenOf ctx n.tree.lastLeaf)
  accessor? n := accessorOf? ctx n.tree
  field? n := fieldOf? ctx n.tree

end TreeNode

end SourceOutline
