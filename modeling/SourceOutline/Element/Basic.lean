import SourceOutline.Metamodel.Basic
import SourceOutline.Node.Position
import SourceOutline.Text.Quoted

/-
  Elements: nodes seen through the entity of their rule. A caller asks for the values and children
  that the entity declares and never sees the grammar.

  The four position properties come before any declaration. Other properties prefer a computed
  accessor to a stored field, relations prefer the field.

  The nodes under a relation become children by a function that wraps them. That is `wrap` where
  the children themselves are asked for, and otherwise one that puts more to them, such as where
  they were reached from.
-/

namespace SourceOutline

/-- A property or a relation of an entity. -/
inductive Feature where
  | property (p : Property)
  | relation (r : Relation)
deriving DecidableEq

namespace Feature

def name : Feature → String
  | .property p => p.name
  | .relation r => r.name

def multiplicity : Feature → Multiplicity
  | .property p => p.multiplicity
  | .relation r => r.multiplicity

def isRelation : Feature → Bool
  | .property _ => false
  | .relation _ => true

end Feature

/-- One value of an element: a feature and an index, 0 if the feature holds a single value. -/
structure Reference where
  feature : Feature
  index : Nat
deriving DecidableEq

def Reference.label (r : Reference) : String := s!"{r.feature.name}#{r.index}"

structure Element (ν : Type) where
  node : ν
  entity : Entity

/-- What a reference leads to: a value, or a child. -/
inductive Resolved (α : Type) where
  | value (v : Value)
  | element (child : α)

namespace Element

variable {ν α : Type} [SyntaxNode ν]

open SyntaxNode

/-- A node with the entity of its rule. -/
def wrap (m : Metamodel) (n : ν) : Except Fault (Element ν) :=
  match m.entity? (rule n) with
  | some entity => .ok ⟨n, entity⟩
  | none => .error (.unknownEntity (rule n))

def interval (e : Element ν) : Interval := SyntaxNode.interval e.node

def describe (e : Element ν) : String :=
  s!"NodeElement \x7b entity: {Text.quoted e.entity.name}, wrapped: {label e.node} \x7d"

/-! ## Faults at a name -/

def unresolvable (e : Element ν) (name : String) : Fault :=
  .unresolvable (rule e.node) name e.interval

def mismatch (e : Element ν) (name : String) (expected : Shape) (found : Raw ν) : Fault :=
  .shapeMismatch (rule e.node) name e.interval expected found.shape

/-- Refuses a feature that is declared otherwise than it is asked for. -/
def expectMultiplicity (e : Element ν) (name : String) (declared requested : Multiplicity) :
    Except Fault Unit :=
  if declared = requested then .ok ()
  else .error (.cardinality (rule e.node) name e.interval declared requested)

/-! ## What a node holds under a name -/

def propertyRaw (e : Element ν) (name : String) : Except Fault (Raw ν) :=
  match (accessor? e.node name).or (field? e.node name) with
  | some r => .ok r
  | none => .error (e.unresolvable name)

def relationRaw (e : Element ν) (name : String) : Except Fault (Raw ν) :=
  match (field? e.node name).or (accessor? e.node name) with
  | some r => .ok r
  | none => .error (e.unresolvable name)

/-! ## Properties -/

def singleProperty (e : Element ν) (p : Property) : Except Fault (Option Value) := do
  match ← Position.property? e.node p.name with
  | some v => pure (some v)
  | none =>
    e.expectMultiplicity p.name p.multiplicity .single
    match ← e.propertyRaw p.name with
    | .value v => pure v
    | .node n => pure (n.map toValue)
    | r => throw (e.mismatch p.name .value r)

def multipleProperty (e : Element ν) (p : Property) : Except Fault (List Value) := do
  e.expectMultiplicity p.name p.multiplicity .multiple
  match ← e.propertyRaw p.name with
  | .values vs => pure vs
  | .nodes ns => pure (ns.map toValue)
  | r => throw (e.mismatch p.name .values r)

/-- A property by name: one of the four positions, or one that the entity declares. -/
def propertyNamed (e : Element ν) (name : String) : Except Fault (Option Value) := do
  match ← Position.property? e.node name with
  | some v => pure (some v)
  | none =>
    match e.entity.property? name with
    | some p => e.singleProperty p
    | none => throw (.unknownProperty e.entity.name name)

/-! ## Relations -/

/-- The child under a single relation, not yet wrapped. -/
def childNode? (e : Element ν) (r : Relation) : Except Fault (Option ν) := do
  e.expectMultiplicity r.name r.multiplicity .single
  match ← e.relationRaw r.name with
  | .node n => pure n
  | raw => throw (e.mismatch r.name .node raw)

/-- The children under a multiple relation, not yet wrapped. -/
def childNodes (e : Element ν) (r : Relation) : Except Fault (List ν) := do
  e.expectMultiplicity r.name r.multiplicity .multiple
  match ← e.relationRaw r.name with
  | .nodes ns => pure ns
  | raw => throw (e.mismatch r.name .nodes raw)

def singleRelationBy (wrap : ν → Except Fault α) (e : Element ν) (r : Relation) :
    Except Fault (Option α) := do
  match ← e.childNode? r with
  | some n => pure (some (← wrap n))
  | none => pure none

def multipleRelationBy (wrap : ν → Except Fault α) (e : Element ν) (r : Relation) :
    Except Fault (List α) := do
  (← e.childNodes r).mapM wrap

/-- The declared relation of a name. -/
def declaredRelation (e : Element ν) (name : String) : Except Fault Relation :=
  match e.entity.relation? name with
  | some r => .ok r
  | none => .error (.unknownRelation e.entity.name name)

def relationNamedBy (wrap : ν → Except Fault α) (e : Element ν) (name : String) :
    Except Fault (Option α) := do
  e.singleRelationBy wrap (← e.declaredRelation name)

def relationsNamedBy (wrap : ν → Except Fault α) (e : Element ν) (name : String) :
    Except Fault (List α) := do
  e.multipleRelationBy wrap (← e.declaredRelation name)

/-- What a reference leads to; nothing if there is no value at its index. -/
def valueAtBy (wrap : ν → Except Fault α) (e : Element ν) (ref : Reference) :
    Except Fault (Option (Resolved α)) := do
  match ref.feature with
  | .property p =>
    if p.isSingle then
      let v ← e.singleProperty p
      pure (if ref.index = 0 then v.map .value else none)
    else
      let vs ← e.multipleProperty p
      pure (vs[ref.index]?.map .value)
  | .relation r =>
    if r.isSingle then
      let c ← e.singleRelationBy wrap r
      pure (if ref.index = 0 then c.map .element else none)
    else
      let cs ← e.multipleRelationBy wrap r
      pure (cs[ref.index]?.map .element)

/-! ## Children as elements -/

def singleRelation (m : Metamodel) (e : Element ν) (r : Relation) :
    Except Fault (Option (Element ν)) :=
  e.singleRelationBy (wrap m) r

def multipleRelation (m : Metamodel) (e : Element ν) (r : Relation) :
    Except Fault (List (Element ν)) :=
  e.multipleRelationBy (wrap m) r

def valueAt (m : Metamodel) (e : Element ν) (ref : Reference) :
    Except Fault (Option (Resolved (Element ν))) :=
  e.valueAtBy (wrap m) ref

end Element

end SourceOutline
