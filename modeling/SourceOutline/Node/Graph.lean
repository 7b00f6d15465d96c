import SourceOutline.Node.Basic

/-
  Nodes given by hand, as entries of a table that name each other by their place in it. A node may
  be shared, and may lie below itself.
-/

namespace SourceOutline

/-- One entry of a graph of `size` nodes. -/
structure GraphEntry (size : Nat) where
  rule : String
  interval : Interval
  text : String := ""
  first : Option Token := none
  last : Option Token := none
  fields : List (String × Raw (Fin size)) := []
  accessors : List (String × Raw (Fin size)) := []

structure NodeGraph where
  size : Nat
  entry : Fin size → GraphEntry size

/-- A node of a graph. -/
structure GraphNode (g : NodeGraph) where
  place : Fin g.size

namespace Raw

def map {ν μ : Type} (f : ν → μ) : Raw ν → Raw μ
  | .value v => .value v
  | .values vs => .values vs
  | .node n => .node (n.map f)
  | .nodes ns => .nodes (ns.map f)

end Raw

namespace NodeGraph

/-- The graph of a table of entries. -/
def ofVector {size : Nat} (entries : Vector (GraphEntry size) size) : NodeGraph :=
  ⟨size, fun i => entries[i]⟩

end NodeGraph

namespace GraphNode

variable {g : NodeGraph}

def entry (n : GraphNode g) : GraphEntry g.size := g.entry n.place

def lookUp? (l : List (String × Raw (Fin g.size))) (name : String) : Option (Raw (GraphNode g)) :=
  (l.find? (·.1 = name)).map fun e => e.2.map GraphNode.mk

instance : SyntaxNode (GraphNode g) where
  rule n := n.entry.rule
  interval n := n.entry.interval
  text n := n.entry.text
  first? n := n.entry.first
  last? n := n.entry.last
  accessor? n := lookUp? n.entry.accessors
  field? n := lookUp? n.entry.fields

end GraphNode

end SourceOutline
