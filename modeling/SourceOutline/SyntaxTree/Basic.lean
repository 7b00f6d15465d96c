import SourceOutline.Grammar.SlotTable
import SourceOutline.Text.Bytes

/-
  Parse trees with their source. Anonymous tokens, error nodes and missing nodes are in the tree
  like all others.
-/

namespace SourceOutline

/-- What a tree says about one node besides its children. Offsets and the column are in bytes, rows
    count from 0. -/
structure TreeLabel where
  kind : String
  named : Bool
  /-- The field of the parent that the node stands in. -/
  field : Option String
  startByte : UInt64
  endByte : UInt64
  row : UInt64
  column : UInt64
deriving DecidableEq

inductive SyntaxTree where
  | node (label : TreeLabel) (children : List SyntaxTree)

namespace SyntaxTree

def label : SyntaxTree → TreeLabel
  | .node l _ => l

def children : SyntaxTree → List SyntaxTree
  | .node _ cs => cs

def kind (t : SyntaxTree) : String := t.label.kind

mutual

/-- The number of levels below the root. -/
def height : SyntaxTree → Nat
  | .node _ children => heights children

/-- One more than the greatest height in a list; 0 for none. -/
def heights : List SyntaxTree → Nat
  | [] => 0
  | t :: ts => max (t.height + 1) (heights ts)

end

theorem succ_height_le_heights {c : SyntaxTree} {children : List SyntaxTree}
    (hc : c ∈ children) : c.height + 1 ≤ heights children := by
  induction children with
  | nil => simp at hc
  | cons d children ih =>
    rw [heights]
    rcases List.mem_cons.1 hc with rfl | hc
    · exact Nat.le_max_left ..
    · exact Nat.le_trans (ih hc) (Nat.le_max_right ..)

theorem height_lt_of_mem_children {n c : SyntaxTree} (hc : c ∈ n.children) :
    c.height < n.height := by
  obtain ⟨label, children⟩ := n
  exact succ_height_le_heights hc

mutual

/-- The leaf reached by first children. -/
def firstLeaf : SyntaxTree → TreeLabel
  | .node l children => firstLeafOf l children

def firstLeafOf (own : TreeLabel) : List SyntaxTree → TreeLabel
  | [] => own
  | t :: _ => t.firstLeaf

end

mutual

/-- The leaf reached by last children. -/
def lastLeaf : SyntaxTree → TreeLabel
  | .node l children => lastLeafOf l children

def lastLeafOf (own : TreeLabel) : List SyntaxTree → TreeLabel
  | [] => own
  | [t] => t.lastLeaf
  | _ :: t :: ts => lastLeafOf own (t :: ts)

end

/-! ## Trees from their preorder -/

/-- Takes the last `n` trees off a stack, in their order. -/
def take? : Nat → List SyntaxTree → List SyntaxTree → Option (List SyntaxTree × List SyntaxTree)
  | 0, taken, stack => some (taken.reverse, stack)
  | _ + 1, _, [] => none
  | n + 1, taken, t :: stack => take? n (t :: taken) stack

/-- Adds a node in front of a forest, the first `n` trees of which become its children. -/
def addNode? (entry : TreeLabel × Nat) (forest : List SyntaxTree) : Option (List SyntaxTree) := do
  let (children, rest) ← take? entry.2 [] forest
  pure (.node entry.1 children :: rest)

/-- The tree whose nodes in preorder, each with its number of children, are given. -/
def ofPreorder? (entries : List (TreeLabel × Nat)) : Option SyntaxTree := do
  match ← entries.foldrM addNode? [] with
  | [t] => pure t
  | _ => none

end SyntaxTree

end SourceOutline
