import SourceOutline.Element.Order
import SourceOutline.Keyed
import SourceOutline.Outline.Basic

/-
  The outline of an element: its span and its values in source order, then the same for every
  child, down to a depth limit or to the end.

  A feature with many values is resolved once and kept for the other references to it.
-/

namespace SourceOutline

/-- The lists that have been resolved for one element, by kind and name of the feature. -/
abbrev ListCache (ν : Type) := List ((Bool × String) × Array (Resolved (Element ν)))

namespace Element

variable {ν : Type} [SyntaxNode ν]

/-- The four positions of an element. -/
def span (e : Element ν) : Except Fault (Option Span) := do
  let at? (p : Position) : Except Fault (Option Int) := do
    pure ((← e.propertyNamed p.name).bind Value.int?)
  let startLine ← at? .startLine
  let startColumn ← at? .startColumn
  let endLine ← at? .endLine
  let endColumn ← at? .endColumn
  match startLine, startColumn, endLine, endColumn with
  | some sl, some sc, some el, some ec => pure (some ⟨sl, sc, el, ec⟩)
  | _, _, _, _ => pure none

/-- Everything under a feature that holds a list. -/
def resolveList (m : Metamodel) (e : Element ν) :
    Feature → Except Fault (Array (Resolved (Element ν)))
  | .property p => do pure ((← e.multipleProperty p).map .value).toArray
  | .relation r => do pure ((← e.multipleRelation m r).map .element).toArray

/-- What a reference leads to, with the lists known afterwards. -/
def resolve (m : Metamodel) (e : Element ν) (cache : ListCache ν) (ref : Reference) :
    Except Fault (Option (Resolved (Element ν)) × ListCache ν) :=
  match ref.feature.multiplicity with
  | .single => do pure (← e.valueAt m ref, cache)
  | .multiple =>
    let key := (ref.feature.isRelation, ref.feature.name)
    match Keyed.find? Prod.fst key cache with
    | some entry => .ok (entry.2[ref.index]?, cache)
    | none => do
      let list ← e.resolveList m ref.feature
      pure (list[ref.index]?, (key, list) :: cache)

/-- The outline of an element that stands `depth` levels below the one that was asked for. From the
    depth limit on children are left out. The descent need not come to an end, and then it gives
    nothing. -/
def outlineAt (m : Metamodel) (limit : Option Nat) (depth : Nat) (e : Element ν) :
    ExceptT Fault Option Outline := do
  let span ← e.span
  let refs ← e.valuesOrder
  let (values, _) ← refs.foldlM (fun (values, cache) ref => do
    let (resolved, cache) ← e.resolve m cache ref
    match resolved with
    | none => pure (values, cache)
    | some (.value v) => pure (values.push (.mk ref.feature.name ref.index (.value v)), cache)
    | some (.element child) =>
      let content ← (if limit.any (· ≤ depth) then pure (.elided child.entity.name)
        else .element <$> (outlineAt m limit (e := child)) (depth + 1))
      pure (values.push (.mk ref.feature.name ref.index content), cache))
    ((#[], []) : Array OutlineValue × ListCache ν)
  pure (.mk e.entity.name span values.toList)
partial_fixpoint

/-- The outline down to a depth limit, or to the end; nothing if there is no end. -/
def outline (m : Metamodel) (limit : Option Nat) (e : Element ν) : Option (Except Fault Outline) :=
  (e.outlineAt m limit 0).run

end Element

end SourceOutline
