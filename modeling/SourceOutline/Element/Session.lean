import SourceOutline.Element.Order

/-
  Exploring elements by handles. Every element that a query gives becomes a new handle, which keeps
  the handle that it was reached from. Dropping a handle ends its element, and with it the link
  from the elements reached from it.
-/

namespace SourceOutline

structure SessionEntry (ν : Type) where
  element : Element ν
  /-- The handle that the element was reached from; none for a root. -/
  parent : Option Nat
  live : Bool := true

/-- A node as an element that was reached from `parent`. -/
def SessionEntry.wrap {ν : Type} [SyntaxNode ν] (m : Metamodel) (parent : Option Nat) (n : ν) :
    Except Fault (SessionEntry ν) := do
  pure ⟨← Element.wrap m n, parent, true⟩

/-- The elements reached so far; a handle is a place in the list. -/
structure Session (ν : Type) where
  metamodel : Metamodel
  entries : Array (SessionEntry ν)

/-- What can be asked of an element. -/
inductive Query where
  | propertyNamed (name : String)
  | singleProperty (p : Property)
  | multipleProperty (p : Property)
  | relationNamed (name : String)
  | relationsNamed (name : String)
  | singleRelation (r : Relation)
  | multipleRelation (r : Relation)
  | valuesOrder
  | valueAt (ref : Reference)
  | parent
  | drop

/-- Elements in an answer come with their handles. -/
inductive Answer (ν : Type) where
  | value (v : Option Value)
  | values (vs : List Value)
  | element (e : Option (Nat × Element ν))
  | elements (es : List (Nat × Element ν))
  | order (refs : List Reference)
  | parent (handle : Option Nat)
  | dropped

namespace Session

variable {ν : Type} [SyntaxNode ν]

/-- A session that holds the root alone, as handle 0. -/
def start (m : Metamodel) (root : ν) : Except Fault (Session ν) := do
  pure ⟨m, #[← SessionEntry.wrap m none root]⟩

/-- The entry of a handle that is there and not dropped. -/
def live? (s : Session ν) (handle : Nat) : Option (SessionEntry ν) :=
  s.entries[handle]?.filter SessionEntry.live

def element? (s : Session ν) (handle : Nat) : Option (Element ν) :=
  (s.live? handle).map SessionEntry.element

/-- New handles for some elements. -/
def push (s : Session ν) (new : List (SessionEntry ν)) : Session ν × List (Nat × Element ν) :=
  ({ s with entries := s.entries ++ new.toArray },
    new.mapIdx fun i entry => (s.entries.size + i, entry.element))

def drop (s : Session ν) (handle : Nat) : Session ν :=
  { s with entries := s.entries.modify handle fun e => { e with live := false } }

/-- A child found, or not, as an answer. -/
def give? (s : Session ν) (child : Option (SessionEntry ν)) : Session ν × Answer ν :=
  let (s, given) := s.push child.toList
  (s, .element given.head?)

/-- The handle of the parent, as long as it has not been dropped. -/
def parent? (s : Session ν) (entry : SessionEntry ν) : Option Nat :=
  entry.parent.filter fun p => (s.live? p).isSome

def askEntry (s : Session ν) (handle : Nat) (entry : SessionEntry ν) (q : Query) :
    Except Fault (Session ν × Answer ν) := do
  let e := entry.element
  let wrap := SessionEntry.wrap s.metamodel (some handle)
  match q with
  | .propertyNamed name => pure (s, .value (← e.propertyNamed name))
  | .singleProperty p => pure (s, .value (← e.singleProperty p))
  | .multipleProperty p => pure (s, .values (← e.multipleProperty p))
  | .relationNamed name => pure (s.give? (← e.relationNamedBy wrap name))
  | .singleRelation r => pure (s.give? (← e.singleRelationBy wrap r))
  | .relationsNamed name =>
    let (s, given) := s.push (← e.relationsNamedBy wrap name)
    pure (s, .elements given)
  | .multipleRelation r =>
    let (s, given) := s.push (← e.multipleRelationBy wrap r)
    pure (s, .elements given)
  | .valuesOrder => pure (s, .order (← e.valuesOrder))
  | .valueAt ref =>
    match ← e.valueAtBy wrap ref with
    | some (.element child) => pure (s.give? (some child))
    | some (.value v) => pure (s, .value (some v))
    | none => pure (s, .value none)
  | .parent => pure (s, .parent (s.parent? entry))
  | .drop => pure (s.drop handle, .dropped)

/-- Asks the element of a handle; no answer if the handle was dropped or never was. A query that
    fails leaves the session as it is. -/
def ask (s : Session ν) (handle : Nat) (q : Query) :
    Session ν × Option (Except Fault (Answer ν)) :=
  match s.live? handle with
  | none => (s, none)
  | some entry =>
    match s.askEntry handle entry q with
    | .error f => (s, some (.error f))
    | .ok (s, a) => (s, some (.ok a))

end Session

end SourceOutline
