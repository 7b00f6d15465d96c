import SourceOutline.Node.Graph
import SourceOutline.Proofs.Element.Readable

/-
  When an element has no order of its values, and for which fault.

  The features are read as they are declared, the relations and then the properties, and the first
  that cannot be read decides (`faultOf?_valuesOrder`). `Refused` says when a feature cannot be read
  and what the fault is: a single property with the name of a position lacks a token, and for any
  other feature the node has nothing under its name, or something of a shape that the feature does
  not take (`faultAt?_eq_some_iff`). Features are asked for as they are declared, and children are
  not wrapped, so that no other fault comes up (`valuesOrder_eq_error_iff`).
-/

namespace SourceOutline

/-! ## The fault of a computation -/

/-- The fault with which a computation fails, if it does. -/
def faultOf? {α : Type} : Except Fault α → Option Fault
  | .ok _ => none
  | .error fault => some fault

variable {α β : Type}

theorem faultOf?_eq_some_iff {x : Except Fault α} {fault : Fault} :
    faultOf? x = some fault ↔ x = .error fault := by
  cases x <;> simp [faultOf?]

theorem faultOf?_map (x : Except Fault α) (g : α → β) : faultOf? (x.map g) = faultOf? x := by
  cases x <;> rfl

theorem faultOf?_bind_pure (x : Except Fault α) (g : α → β) :
    faultOf? (x >>= fun a => pure (g a)) = faultOf? x := by
  cases x <;> rfl

/-- If the fault of the second step does not depend on the first, it shows where the first has
    none. -/
theorem faultOf?_bind (x : Except Fault α) {f : α → Except Fault β} {next : Option Fault}
    (h : ∀ a, faultOf? (f a) = next) : faultOf? (x >>= f) = (faultOf? x).or next := by
  cases x with
  | error fault => rfl
  | ok a => exact h a

/-- A traversal fails as the first item that fails. -/
theorem faultOf?_mapM (f : α → Except Fault β) (l : List α) :
    faultOf? (l.mapM f) = l.findSome? fun a => faultOf? (f a) := by
  induction l with
  | nil => rfl
  | cons a l ih =>
    have hrest : ∀ b, faultOf? (l.mapM f >>= fun bs => pure (b :: bs)) =
        l.findSome? fun a => faultOf? (f a) := by
      intro b
      rw [faultOf?_bind_pure, ih]
    rw [List.mapM_cons, faultOf?_bind (f a) hrest, List.findSome?_cons]
    cases faultOf? (f a) <;> rfl

/-! ## Positions -/

namespace Position

variable {ν : Type} [SyntaxNode ν] {n : ν} {fault : Fault}

open SyntaxNode

theorem eq_name_of_ofName? {name : String} {pos : Position} (h : ofName? name = some pos) :
    name = pos.name := by
  unfold ofName? at h
  split at h <;> cases h <;> rfl

theorem property?_of_ne_name {name : String} (h : ∀ pos : Position, name ≠ pos.name) (n : ν) :
    property? n name = .ok none := by
  unfold property?
  split
  · next pos hpos => exact absurd (eq_name_of_ofName? hpos) (h pos)
  · rfl

/-- The token that a position needs is missing. An empty node with a first token can do without a
    last one. -/
def MissingToken (pos : Position) (n : ν) (fault : Fault) : Prop :=
  match pos with
  | .startLine | .startColumn => first? n = none ∧ fault = .missingStart (rule n) (interval n)
  | .endLine | .endColumn => last? n = none ∧ (first? n = none ∨ text n ≠ "") ∧
    fault = .missingStop (rule n) (interval n) (text n) (first? n)

theorem startOf_eq_error_iff : startOf n = .error fault ↔
    first? n = none ∧ fault = .missingStart (rule n) (interval n) := by
  unfold startOf
  cases first? n with
  | some t => simp
  | none =>
    simp only [Except.error.injEq, true_and]
    exact eq_comm

theorem stopOf_eq_error_iff : stopOf n = .error fault ↔
    last? n = none ∧ (first? n = none ∨ text n ≠ "") ∧
      fault = .missingStop (rule n) (interval n) (text n) (first? n) := by
  unfold stopOf
  cases last? n with
  | some t => simp
  | none =>
    cases first? n with
    | none =>
      simp only [Except.error.injEq, true_or, true_and]
      exact eq_comm
    | some t =>
      by_cases htext : text n = ""
      · simp [htext]
      · simp only [htext, if_false, Except.error.injEq, ne_eq, not_false_eq_true, or_true, true_and]
        exact eq_comm

theorem faultOf?_get_eq_some_iff (pos : Position) :
    faultOf? (pos.get n) = some fault ↔ pos.MissingToken n fault := by
  cases pos with
  | startLine | startColumn =>
    rw [get, faultOf?_map, faultOf?_eq_some_iff]
    exact startOf_eq_error_iff
  | endLine | endColumn =>
    rw [get, faultOf?_map, faultOf?_eq_some_iff]
    exact stopOf_eq_error_iff

end Position

/-! ## Features -/

/-- The query did not fit what the metamodel declares. -/
def Fault.OfDeclaration : Fault → Prop
  | .unknownProperty _ _ => True
  | .unknownRelation _ _ => True
  | .unknownEntity _ => True
  | .cardinality _ _ _ _ _ => True
  | .unresolvable _ _ _ => False
  | .shapeMismatch _ _ _ _ _ => False
  | .missingStop _ _ _ _ => False
  | .missingStart _ _ => False

/-- All features in the order in which they are read. -/
def Entity.features (e : Entity) : List Feature :=
  e.relations.map .relation ++ e.properties.map .property

namespace Feature

/-- A single property that bears the name of a position, and so is never looked up on the node. -/
def IsPosition : Feature → Prop
  | .property p => p.multiplicity = .single ∧ ∃ pos : Position, p.name = pos.name
  | .relation _ => False

/-- The shape that a feature expects. -/
def shape : Feature → Shape
  | .property ⟨_, .single⟩ => .value
  | .property ⟨_, .multiple⟩ => .values
  | .relation ⟨_, .single, _⟩ => .node
  | .relation ⟨_, .multiple, _⟩ => .nodes

/-- A feature takes the shape that it expects, and a property takes nodes for values. -/
def takes (f : Feature) (found : Shape) : Bool :=
  match f, found with
  | .property ⟨_, .single⟩, .node => true
  | .property ⟨_, .multiple⟩, .nodes => true
  | f, found => f.shape = found

end Feature

namespace Element

variable {ν : Type} [SyntaxNode ν] {e : Element ν} {f : Feature} {fault : Fault}

open SyntaxNode

/-- What stands under the name of a feature; a relation is looked up as a field first, a property
    as an accessor. -/
def rawOf? (e : Element ν) : Feature → Option (Raw ν)
  | .relation r => (field? e.node r.name).or (accessor? e.node r.name)
  | .property p => (accessor? e.node p.name).or (field? e.node p.name)

/-- Why a feature of an element cannot be read. -/
inductive Refused (e : Element ν) : Feature → Fault → Prop where
  | position {p : Property} {pos : Position} {fault : Fault} :
      p.multiplicity = .single → p.name = pos.name → pos.MissingToken e.node fault →
        Refused e (.property p) fault
  | absent {f : Feature} :
      ¬ f.IsPosition → e.rawOf? f = none → Refused e f (e.unresolvable f.name)
  | misshapen {f : Feature} {raw : Raw ν} :
      ¬ f.IsPosition → e.rawOf? f = some raw → f.takes raw.shape = false →
        Refused e f (e.mismatch f.name f.shape raw)

/-- The fault of the query for a feature as it is declared, its children not wrapped. -/
def faultAt? (e : Element ν) : Feature → Option Fault
  | .relation r => faultOf? (e.childrenUnder r)
  | .property p => faultOf? (e.valuesUnder p)

theorem faultAt?_position {p : Property} {pos : Position} (hm : p.multiplicity = .single)
    (hname : p.name = pos.name) : e.faultAt? (.property p) = faultOf? (pos.get e.node) := by
  have hs : p.isSingle = true := decide_eq_true hm
  rw [faultAt?, valuesUnder, if_pos hs, faultOf?_bind_pure]
  unfold singleProperty
  rw [hname, property?_name]
  cases pos.get e.node <;> rfl

/-- Any other feature fails by what stands under its name. -/
theorem faultAt?_eq (e : Element ν) (hf : ¬ f.IsPosition) :
    e.faultAt? f = match e.rawOf? f with
      | none => some (e.unresolvable f.name)
      | some raw =>
        if f.takes raw.shape then none else some (e.mismatch f.name f.shape raw) := by
  match f, hf with
  | .relation ⟨name, .single, targets⟩, _ =>
    simp only [faultAt?, childrenUnder, childNode?, relationRaw, rawOf?]
    generalize (field? e.node name).or (accessor? e.node name) = found
    cases found with
    | none => rfl
    | some raw => cases raw <;> rfl
  | .relation ⟨name, .multiple, targets⟩, _ =>
    simp only [faultAt?, childrenUnder, childNodes, relationRaw, rawOf?]
    generalize (field? e.node name).or (accessor? e.node name) = found
    cases found with
    | none => rfl
    | some raw => cases raw <;> rfl
  | .property ⟨name, .single⟩, hf =>
    have hnone := Position.property?_of_ne_name (fun pos hname => hf ⟨rfl, pos, hname⟩) e.node
    simp only [faultAt?, valuesUnder, singleProperty, propertyRaw, rawOf?]
    rw [hnone]
    generalize (accessor? e.node name).or (field? e.node name) = found
    cases found with
    | none => rfl
    | some raw => cases raw <;> rfl
  | .property ⟨name, .multiple⟩, _ =>
    simp only [faultAt?, valuesUnder, multipleProperty, propertyRaw, rawOf?]
    generalize (accessor? e.node name).or (field? e.node name) = found
    cases found with
    | none => rfl
    | some raw => cases raw <;> rfl

theorem faultAt?_eq_some_iff : e.faultAt? f = some fault ↔ e.Refused f fault := by
  constructor
  · intro h
    by_cases hf : f.IsPosition
    · match f, hf with
      | .property p, ⟨hm, pos, hname⟩ =>
        rw [faultAt?_position hm hname, Position.faultOf?_get_eq_some_iff] at h
        exact .position hm hname h
    · rw [faultAt?_eq e hf] at h
      split at h
      · next hraw =>
        cases h
        exact .absent hf hraw
      · next raw hraw =>
        split at h
        · cases h
        · next htakes =>
          cases h
          exact .misshapen hf hraw (by simpa using htakes)
  · rintro (⟨hm, hname, hmissing⟩ | ⟨hf, hraw⟩ | ⟨hf, hraw, htakes⟩)
    · rw [faultAt?_position hm hname, Position.faultOf?_get_eq_some_iff]
      exact hmissing
    · rw [faultAt?_eq e hf, hraw]
    · rw [faultAt?_eq e hf, hraw]
      simp only [htakes, Bool.false_eq_true, if_false]

/-! ## The first fault -/

/-- The order of the values fails as the first feature that fails. -/
theorem faultOf?_valuesOrder (e : Element ν) :
    faultOf? e.valuesOrder = e.entity.features.findSome? e.faultAt? := by
  have hrelations : faultOf? (e.entity.relations.mapM e.relationEmission) =
      e.entity.relations.findSome? fun r => faultOf? (e.childrenUnder r) := by
    rw [faultOf?_mapM]
    simp only [relationEmission_eq, faultOf?_bind_pure]
  have hproperties : faultOf? (e.entity.properties.mapM e.propertyEmission) =
      e.entity.properties.findSome? fun p => faultOf? (e.valuesUnder p) := by
    rw [faultOf?_mapM]
    simp only [propertyEmission_eq, faultOf?_bind_pure]
  unfold valuesOrder
  rw [faultOf?_bind_pure]
  unfold emission
  rw [faultOf?_bind _ fun relations => (faultOf?_bind_pure _ _).trans hproperties, hrelations,
    Entity.features, List.findSome?_append, List.findSome?_map, List.findSome?_map]
  rfl

theorem Refused.not_ofDeclaration (h : e.Refused f fault) : ¬ fault.OfDeclaration := by
  cases h with
  | @position p pos fault hm hname hmissing =>
    cases pos with
    | startLine | startColumn =>
      obtain ⟨-, rfl⟩ := hmissing
      exact id
    | endLine | endColumn =>
      obtain ⟨-, -, rfl⟩ := hmissing
      exact id
  | absent hf hraw => exact id
  | misshapen hf hraw htakes => exact id

/-- The order of the values fails exactly if the query for some feature fails, with the fault of the
    first such feature, relations before properties; this is never a fault of declaration. A feature
    fails exactly as `Refused` says. -/
theorem valuesOrder_eq_error_iff (e : Element ν) :
    (∀ fault, e.valuesOrder = .error fault ↔
      ∃ before f after, e.entity.features = before ++ f :: after ∧
        (∀ g ∈ before, e.faultAt? g = none) ∧ e.faultAt? f = some fault) ∧
    (∀ f fault, e.faultAt? f = some fault ↔ e.Refused f fault) ∧
    ∀ fault, e.valuesOrder = .error fault → ¬ fault.OfDeclaration := by
  have hfirst : ∀ fault, e.valuesOrder = .error fault ↔
      ∃ before f after, e.entity.features = before ++ f :: after ∧
        (∀ g ∈ before, e.faultAt? g = none) ∧ e.faultAt? f = some fault := by
    intro fault
    rw [← faultOf?_eq_some_iff, faultOf?_valuesOrder, List.findSome?_eq_some_iff]
    simp only [and_comm]
  refine ⟨hfirst, fun f fault => faultAt?_eq_some_iff, ?_⟩
  intro fault h
  obtain ⟨before, f, after, -, -, hfault⟩ := (hfirst fault).1 h
  exact (faultAt?_eq_some_iff.1 hfault).not_ofDeclaration

/-- A node without tokens. Its items are there, its rest is not, and its size is a list. -/
def tokenlessGraph : NodeGraph := .ofVector #v[
  { rule := "list", interval := ⟨0, 1⟩, text := "l",
    fields := [("items", .nodes [1, 2]), ("size", .values [])] },
  { rule := "item", interval := ⟨0, 1⟩ },
  { rule := "item", interval := ⟨1, 1⟩ }]

def tokenless : Element (GraphNode tokenlessGraph) :=
  ⟨⟨(0 : Fin 3)⟩, ⟨"list", [⟨"end_line", .single⟩, ⟨"size", .single⟩],
    [⟨"items", .multiple, []⟩, ⟨"rest", .single, []⟩]⟩⟩

/-- The missing rest decides, before the properties, which cannot be read either. -/
theorem valuesOrder_eq_error_iff_tokenless :
    tokenless.valuesOrder = .error (.unresolvable "list" "rest" ⟨0, 1⟩) ∧
      tokenless.Refused (.property ⟨"end_line", .single⟩)
        (.missingStop "list" ⟨0, 1⟩ "l" none) ∧
      tokenless.Refused (.property ⟨"size", .single⟩)
        (.shapeMismatch "list" "size" ⟨0, 1⟩ .value .values) := by
  obtain ⟨hfirst, hrefused, -⟩ := valuesOrder_eq_error_iff tokenless
  refine ⟨(hfirst _).2 ⟨[.relation ⟨"items", .multiple, []⟩], .relation ⟨"rest", .single, []⟩,
    _, rfl, by decide, by decide⟩, ?_, ?_⟩
  · exact (hrefused _ _).1 (by decide)
  · exact (hrefused _ _).1 (by decide)

end Element

end SourceOutline
