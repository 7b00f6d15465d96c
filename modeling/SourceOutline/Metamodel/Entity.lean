/-
  Entities: what nodes of one grammar rule look like, whatever the grammar. A property holds
  values, a relation holds child nodes, each either one or an ordered list.

  The order of declaration is kept: it breaks ties when the values of a node are put into source
  order.
-/

namespace SourceOutline

inductive Multiplicity where
  | single
  | multiple
deriving DecidableEq, Repr

def Multiplicity.ofMultiple (multiple : Bool) : Multiplicity :=
  if multiple then .multiple else .single

def Multiplicity.name : Multiplicity → String
  | .single => "single"
  | .multiple => "multiple"

def Multiplicity.ofName? : String → Option Multiplicity
  | "single" => some .single
  | "multiple" => some .multiple
  | _ => none

structure Property where
  name : String
  multiplicity : Multiplicity
deriving DecidableEq, Repr

structure Relation where
  name : String
  multiplicity : Multiplicity
  /-- The kinds that the relation may lead to. -/
  targets : List String := []
deriving DecidableEq, Repr

structure Entity where
  name : String
  properties : List Property := []
  relations : List Relation := []
deriving DecidableEq, Repr

def Property.isSingle (p : Property) : Bool := p.multiplicity = .single

def Relation.isSingle (r : Relation) : Bool := r.multiplicity = .single

namespace Entity

/-- The first property of a name. -/
def property? (e : Entity) (name : String) : Option Property := e.properties.find? (·.name = name)

/-- The first relation of a name. -/
def relation? (e : Entity) (name : String) : Option Relation := e.relations.find? (·.name = name)

/-- The names of all properties and relations. -/
def featureNames (e : Entity) : List String :=
  e.properties.map Property.name ++ e.relations.map Relation.name

end Entity

end SourceOutline
