import SourceOutline.Node.Basic

/-
  Outlines: an element with its values in source order, children as outlines of their own. Below a
  depth limit a child shows only the name of its entity.
-/

namespace SourceOutline

structure Span where
  startLine : Int
  startColumn : Int
  endLine : Int
  endColumn : Int
deriving DecidableEq

def Span.text (s : Span) : String :=
  s!"{s.startLine}:{s.startColumn}-{s.endLine}:{s.endColumn}"

mutual

inductive Outline where
  | mk (entity : String) (span : Option Span) (values : List OutlineValue)

inductive OutlineValue where
  | mk (name : String) (index : Nat) (content : OutlineContent)

inductive OutlineContent where
  | value (v : Value)
  | element (o : Outline)
  /-- A child below the depth limit, by the name of its entity. -/
  | elided (entity : String)

end

namespace Outline

def entity : Outline → String
  | .mk e _ _ => e

def span : Outline → Option Span
  | .mk _ s _ => s

def values : Outline → List OutlineValue
  | .mk _ _ vs => vs

end Outline

mutual

/-- The number of elements in an outline, its own included. -/
def Outline.count : Outline → Nat
  | .mk _ _ values => 1 + OutlineValue.countAll values

def OutlineValue.countAll : List OutlineValue → Nat
  | [] => 0
  | .mk _ _ content :: values => content.count + OutlineValue.countAll values

def OutlineContent.count : OutlineContent → Nat
  | .value _ => 0
  | .element o => o.count
  | .elided _ => 0

end

end SourceOutline
