import SourceOutline.Element.Basic

/-
  The values of an element in the order of the source. Neither the layout of a node nor the order
  of declaration tells where a value stands, so every value that is there is listed with the start
  of its interval (`emission`) and the list is sorted by it. The sort is stable, and values that
  stand nowhere come first.
-/

namespace SourceOutline

/-- A value that is there, with the offset at which it starts, if it stands in the source. -/
structure Emitted where
  reference : Reference
  start : Option UInt64

namespace Emitted

/-- No offset comes before every offset. -/
def startLe : Option UInt64 → Option UInt64 → Bool
  | none, _ => true
  | some _, none => false
  | some a, some b => a ≤ b

def le (a b : Emitted) : Bool := startLe a.start b.start

/-- The values of one feature from their offsets, numbered from 0. -/
def ofStarts (feature : Feature) (starts : List (Option UInt64)) : List Emitted :=
  starts.mapIdx fun i start => ⟨⟨feature, i⟩, start⟩

end Emitted

namespace Element

variable {ν : Type} [SyntaxNode ν]

def relationEmission (e : Element ν) (r : Relation) : Except Fault (List Emitted) := do
  let children ← if r.isSingle then do pure (← e.childNode? r).toList else e.childNodes r
  pure (Emitted.ofStarts (.relation r) (children.map fun n => some (SyntaxNode.interval n).start))

def propertyEmission (e : Element ν) (p : Property) : Except Fault (List Emitted) := do
  let values ← if p.isSingle then do pure (← e.singleProperty p).toList else e.multipleProperty p
  pure (Emitted.ofStarts (.property p) (values.map fun v => v.interval?.map Interval.start))

/-- Every value of the element: relations as declared, then properties as declared. -/
def emission (e : Element ν) : Except Fault (List Emitted) := do
  let relations ← e.entity.relations.mapM e.relationEmission
  let properties ← e.entity.properties.mapM e.propertyEmission
  pure (relations.flatten ++ properties.flatten)

/-- References to every value of the element, in the order of the source. -/
def valuesOrder (e : Element ν) : Except Fault (List Reference) := do
  pure (((← e.emission).mergeSort Emitted.le).map Emitted.reference)

end Element

end SourceOutline
