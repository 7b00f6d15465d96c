/-
  What the library asks of the nodes of a parse tree, whoever built them: the rule, the first and
  last token, the text, and what stands under a name, as a computed accessor or as a stored field.

  Offsets, lines and columns are 64-bit words.
-/

namespace SourceOutline

/-- The part of the source from `start` up to, not including, `stop`. -/
structure Interval where
  start : UInt64
  stop : UInt64
deriving DecidableEq

def Interval.text (i : Interval) : String := s!"{i.start} - {i.stop}"

/-- A token at the border of a node: lines count from 1, columns are characters from 0. -/
structure Token where
  line : UInt64
  column : UInt64
  text : String
  /-- Whether this is the end of the input. -/
  eof : Bool := false
deriving DecidableEq

def Token.label (t : Token) : String :=
  if t.eof then s!"[<EOF>,{t.line}:{t.column}]" else s!"['{t.text}',{t.line}:{t.column}]"

inductive Value where
  | bool (b : Bool)
  | int (n : Int)
  | text (s : String)
  /-- A piece of the source, with the kind of node that it is. -/
  | token (kind text : String) (interval : Interval)
deriving DecidableEq

namespace Value

/-- Where a value stands in the source, if it stands there at all. -/
def interval? : Value → Option Interval
  | .token _ _ i => some i
  | _ => none

def int? : Value → Option Int
  | .int n => some n
  | _ => none

def display : Value → String
  | .bool true => "true"
  | .bool false => "false"
  | .int n => toString n
  | .text s => s
  | .token _ s _ => s

end Value

/-- The four things that can stand under a name. -/
inductive Shape where
  | value
  | values
  | node
  | nodes
deriving DecidableEq

def Shape.name : Shape → String
  | .value => "a value"
  | .values => "a list of values"
  | .node => "a node"
  | .nodes => "a list of nodes"

/-- What a node holds under a name. A name that exists may still hold nothing. -/
inductive Raw (ν : Type) where
  | value (v : Option Value)
  | values (vs : List Value)
  | node (n : Option ν)
  | nodes (ns : List ν)

def Raw.shape {ν : Type} : Raw ν → Shape
  | .value _ => .value
  | .values _ => .values
  | .node _ => .node
  | .nodes _ => .nodes

/-- The nodes under a name, in order. -/
def Raw.children {ν : Type} : Raw ν → List ν
  | .value _ => []
  | .values _ => []
  | .node n => n.toList
  | .nodes ns => ns

class SyntaxNode (ν : Type) where
  /-- The grammar rule that built the node. -/
  rule : ν → String
  interval : ν → Interval
  text : ν → String
  /-- The first token that the node covers. -/
  first? : ν → Option Token
  /-- The last token that the node covers; none if it covers nothing. -/
  last? : ν → Option Token
  /-- The computed accessor of a name; none if the rule has no such accessor. -/
  accessor? : ν → String → Option (Raw ν)
  /-- The stored field of a name; none if the rule has no such field. -/
  field? : ν → String → Option (Raw ν)
  /-- The node as a property value. -/
  toValue : ν → Value := fun n => .token (rule n) (text n) (interval n)

namespace SyntaxNode

variable {ν : Type} [SyntaxNode ν]

/-- The node's rule and interval. -/
def label (n : ν) : String := rule n ++ "@" ++ (interval n).text

end SyntaxNode

end SourceOutline
