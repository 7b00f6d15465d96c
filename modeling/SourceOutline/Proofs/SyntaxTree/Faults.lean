import SourceOutline.Proofs.SyntaxTree.Answers

/-
  Reading the nodes of a tree through the grammar derived from its node types never meets a fault
  of the schema. Whatever the tree looks like, an element lists its values, gives its properties
  and its positions, and its relations and outlines fail only at a node that they reach and whose
  kind has no entity (`schemaSafe_of_distinctKinds`). Such nodes exist: error nodes have no entity.
-/

namespace SourceOutline

/-- An element can be read as its metamodel declares it; the only fault is a node that a relation
    leads to and that has no entity. -/
structure Element.SchemaSafe {ν : Type} [SyntaxNode ν] (m : Metamodel) (e : Element ν) :
    Prop where
  valuesOrder : ∃ refs, e.valuesOrder = .ok refs
  singleProperty : ∀ p ∈ e.entity.properties, p.multiplicity = .single →
    ∃ v, e.singleProperty p = .ok v
  multipleProperty : ∀ p ∈ e.entity.properties, p.multiplicity = .multiple →
    ∃ vs, e.multipleProperty p = .ok vs
  position : ∀ p : Position, ∃ w, p.get e.node = .ok w ∧
    e.propertyNamed p.name = .ok (some (.int (Position.signed w)))
  singleRelation : ∀ r ∈ e.entity.relations, r.multiplicity = .single →
    FailsOnly (UnknownUnder m e r) (e.singleRelation m r)
  multipleRelation : ∀ r ∈ e.entity.relations, r.multiplicity = .multiple →
    FailsOnly (UnknownUnder m e r) (e.multipleRelation m r)
  outline : ∀ limit, ∃ r, e.outline m limit = some r ∧ FailsOnly (UnknownBelow m e) r

theorem Element.Readable.schemaSafe {ν : Type} [SyntaxNode ν] {m : Metamodel} {e : Element ν}
    (h : e.Readable) (hall : ∀ n : ν, ∀ c, Element.wrap m n = .ok c → c.Readable)
    (hend : e.FiniteDescent m) : e.SchemaSafe m where
  valuesOrder := by
    obtain ⟨refs, hrefs, -⟩ := h.exists_valuesOrder
    exact ⟨refs, hrefs⟩
  singleProperty := fun _ hp => h.exists_singleProperty hp
  multipleProperty := fun _ hp => h.exists_multipleProperty hp
  position := by
    intro p
    obtain ⟨w, hw⟩ := h.position p
    exact ⟨w, hw, Element.propertyNamed_position hw⟩
  singleRelation := fun _ hr => h.singleRelation_failsOnly hr
  multipleRelation := fun _ hr => h.multipleRelation_failsOnly hr
  outline := fun _ => Element.exists_outlineAt_failsOnly hall h (fun _ => hend) 0

namespace Grammar

/-- Grammars in which no two named node types have one kind never raise a fault of the schema: the
    nodes without entity that queries can fail at are those that relations reach in the tree. -/
theorem schemaSafe_of_distinctKinds {types : List NodeType} (h : DistinctKinds types)
    (chars : List Char) (t : SyntaxTree) (entity : Entity)
    (hentity : (derive types).1.entity? t.kind = some entity) :
    (t.element (contextIn types chars) entity).SchemaSafe (derive types).1 ∧
      ∀ n, (t.element (contextIn types chars) entity).Reaches (derive types).1 n →
        n.tree ∈ t.nodes := by
  have hwrap : Element.wrap (derive types).1 (⟨t⟩ : TreeNode (contextIn types chars)) =
      .ok (t.element _ entity) := TreeNode.wrap_eq hentity
  have hread := readable_of_distinctKinds h chars
  refine ⟨(hread _ _ hwrap).schemaSafe hread (TreeNode.finiteDescent _ _), ?_⟩
  intro n hn
  exact TreeNode.mem_nodes_of_reaches (agrees_of_straysFit (straysFit_of_distinctKinds h))
    (keptApart_derive types) hwrap hn

/-- Sums of names, with comments among the statements of a block. -/
def sumTypes : List NodeType :=
  [{ kind := "_term", named := true, subtypes := some [⟨"name", true⟩, ⟨"sum", true⟩] },
    { kind := "sum", named := true,
      fields := .ofList [("left", ⟨false, true, [⟨"_term", true⟩]⟩),
        ("operator", ⟨false, true, [⟨"+", false⟩]⟩),
        ("right", ⟨false, true, [⟨"_term", true⟩]⟩)] },
    { kind := "block", named := true,
      children := some ⟨true, false, [⟨"_term", true⟩, ⟨"comment", true⟩]⟩ },
    { kind := "name", named := true },
    { kind := "comment", named := true }]

/-- A sum with an error where a term should be, and nothing after the sign. -/
def brokenSum : SyntaxTree :=
  .node ⟨"sum", true, none, 0, 3, 0, 0⟩
    [.node ⟨"ERROR", true, some "left", 0, 1, 0, 0⟩ [],
      .node ⟨"+", false, some "operator", 2, 3, 0, 2⟩ []]

theorem schemaSafe_brokenSum :
    DistinctKinds sumTypes ∧ ∃ entity, (derive sumTypes).1.entity? brokenSum.kind = some entity ∧
      (brokenSum.element (contextIn sumTypes "? +".toList) entity).SchemaSafe
        (derive sumTypes).1 := by
  have hentity : (derive sumTypes).1.entity? brokenSum.kind =
      some ⟨"sum", [⟨"operator", .single⟩],
        [⟨"left", .single, ["_term"]⟩, ⟨"right", .single, ["_term"]⟩]⟩ := by decide
  exact ⟨by decide, _, hentity, (schemaSafe_of_distinctKinds (by decide) _ brokenSum _ hentity).1⟩

end Grammar

end SourceOutline
