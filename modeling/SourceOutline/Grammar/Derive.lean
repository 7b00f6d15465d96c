import SourceOutline.Grammar.SlotTable
import SourceOutline.Grammar.Supertypes
import SourceOutline.Metamodel.Basic

/-
  The metamodel and the slots of a grammar, from its node types.

  * Named kinds that are no supertypes become entities.
  * A field that can hold anonymous tokens only is a property, any other field a relation.
  * Each named type among the children outside any field is a relation named after the type,
    without leading underscores. A concrete kind belongs to one such relation: the types that are
    concrete kinds claim theirs first, then supertypes claim what is left, in order. A type left
    with nothing gets no relation.
  * A kind with neither fields nor such children gets the property `text`.
-/

namespace SourceOutline.Grammar

/-- The property under which a leaf shows its text. -/
def textProperty : String := "text"

/-! ## Names of child relations -/

/-- A base with `_children` and a number after it. Numbers are signed words of 32 bits. -/
def numbered (base : String) (n : Int32) : String := base ++ "_children_" ++ toString n

/-- The first name that is not taken among those numbered from `n` on. Behind the greatest number
    comes the least; if all of them are taken the search has no end, and gives nothing. -/
def freeNumbered? (taken : List String) (base : String) (n : Int32) : Option String :=
  if numbered base n ∈ taken then (freeNumbered? taken (n := n + 1)) base
  else some (numbered base n)
partial_fixpoint

/-- The base if it is not taken, or else the base with `_children` after it, or else that numbered
    from 2 on. -/
def freeName? (taken : List String) (base : String) : Option String :=
  if base ∉ taken then some base
  else if base ++ "_children" ∉ taken then some (base ++ "_children")
  else freeNumbered? taken base 2

/-- A name that is longer than every taken one. -/
def spareName (taken : List String) : String :=
  String.ofList (List.replicate ((taken.map String.length).foldr max 0 + 1) '_')

/-- The free name that is found. A search without an end is given some free name, so that what
    follows it can be spoken of. -/
def freeName (taken : List String) (base : String) : String :=
  (freeName? taken base).getD (spareName taken)

/-- A name for a further feature of an entity; nothing if the search for it has no end. -/
def freeFeatureName? (e : Entity) (base : String) : Option String := freeName? e.featureNames base

def stripUnderscores (kind : String) : String := String.ofList (kind.toList.dropWhile (· = '_'))

/-! ## Fields -/

/-- Whether only anonymous tokens can stand in a field. -/
def holdsTokens (spec : ChildSpec) : Bool := spec.types.all fun t => !t.named

def fieldSlot (spec : ChildSpec) : Slot := .field spec.multiple (holdsTokens spec)

def fieldProperties (fields : NameMap ChildSpec) : List Property :=
  (fields.toList.filter fun f => holdsTokens f.2).map fun f =>
    ⟨f.1, .ofMultiple f.2.multiple⟩

def fieldRelations (fields : NameMap ChildSpec) : List Relation :=
  (fields.toList.filter fun f => !holdsTokens f.2).map fun f =>
    ⟨f.1, .ofMultiple f.2.multiple, namedKinds f.2.types⟩

/-! ## Children outside any field -/

/-- The share of one type in the children of a node. -/
structure ChildClaim where
  name : String
  target : String
  kinds : NameSet

/-- Concrete kinds before supertypes, each group in its order. -/
def claimOrder (s : Supertypes) (types : List TypeRef) : List String :=
  let kinds := namedKinds types
  kinds.filter (fun k => !s.contains k) ++ kinds.filter s.contains

/-- Each kind in turn claims the concrete kinds that it stands for and nobody has claimed. -/
def claims (s : Supertypes) : (taken : List String) → (claimed : NameSet) → List String →
    List ChildClaim
  | _, _, [] => []
  | taken, claimed, kind :: rest =>
    let kinds := (s.expand kind).diff claimed
    if kinds.isEmpty then claims s taken claimed rest
    else
      let name := freeName taken (stripUnderscores kind)
      ⟨name, kind, kinds⟩ :: claims s (name :: taken) (claimed.union kinds) rest

/-- The claims on the children of a node type, named apart from its fields. -/
def childClaims (s : Supertypes) (t : NodeType) : List ChildClaim :=
  match t.children with
  | none => []
  | some spec => claims s (t.fields.toList.map Prod.fst) ∅ (claimOrder s spec.types)

/-- Whether the children outside any field may be several. -/
def childrenMultiple (t : NodeType) : Bool := t.children.any ChildSpec.multiple

/-! ## Entities and slots -/

/-- A leaf shows nothing but its text. -/
def isLeaf (t : NodeType) : Bool := t.fields.isEmpty && t.children.isNone

def entityOf (s : Supertypes) (t : NodeType) : Entity where
  name := t.kind
  properties :=
    fieldProperties t.fields ++ if isLeaf t then [⟨textProperty, .single⟩] else []
  relations :=
    fieldRelations t.fields ++ (childClaims s t).map fun c =>
      ⟨c.name, .ofMultiple (childrenMultiple t), [c.target]⟩

/-- The computed accessors of a node type. -/
def accessorSlots (s : Supertypes) (t : NodeType) : List (String × Slot) :=
  ((childClaims s t).map fun c => (c.name, .children c.kinds (childrenMultiple t)))
    ++ if isLeaf t then [(textProperty, .text)] else []

def addSlots (s : Supertypes) (table : SlotTable) (t : NodeType) : SlotTable :=
  let table := t.fields.toList.foldl (fun tb f => tb.insertField t.kind f.1 (fieldSlot f.2)) table
  (accessorSlots s t).foldl (fun tb a => tb.insertAccessor t.kind a.1 a.2) table

/-- The node types that describe nodes: named and no supertypes. -/
def described (s : Supertypes) (types : List NodeType) : List NodeType :=
  types.filter fun t => t.named && !s.contains t.kind

/-- The metamodel that callers see, and the slots by which nodes answer to its names. -/
def derive (types : List NodeType) : Metamodel × SlotTable :=
  let s := Supertypes.ofTypes types
  let types := described s types
  (.ofEntities (types.map (entityOf s)), types.foldl (addSlots s) ∅)

end SourceOutline.Grammar
