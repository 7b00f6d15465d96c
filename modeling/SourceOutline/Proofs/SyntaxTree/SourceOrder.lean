import Mathlib.Data.List.Sort
import SourceOutline.Proofs.Element.StableOrder
import SourceOutline.Proofs.SyntaxTree.Coverage

/-
  Values come in the order of the source. The values of an element are gathered feature by feature
  and then sorted by where they start; in a tree whose siblings start one after the other this
  brings the children back into their order (`exists_reportsInOrder`).

  A value that leads to a child is sorted by the start of this child (`start_of_reads`), so that
  later values lead to no earlier child (`le_of_startByte_le`), and no two lead to the same one
  (`exists_reportsOnce`).
-/

namespace SourceOutline

/-! ## Siblings in order -/

namespace SyntaxTree

/-- Siblings start one after the other, in the whole tree. -/
def SiblingsAdvance (root : SyntaxTree) : Prop :=
  ∀ n ∈ root.nodes, n.children.Pairwise fun a b => a.label.startByte < b.label.startByte

instance (root : SyntaxTree) : Decidable (SiblingsAdvance root) :=
  inferInstanceAs (Decidable (∀ n ∈ root.nodes, _))

/-- A sibling that starts no earlier is at no earlier place. -/
theorem le_of_startByte_le {children : List SyntaxTree}
    (h : children.Pairwise fun a b => a.label.startByte < b.label.startByte) {c d : SyntaxTree}
    {i j : Nat} (hc : children[i]? = some c) (hd : children[j]? = some d)
    (hle : c.label.startByte ≤ d.label.startByte) : i ≤ j := by
  obtain ⟨hi, rfl⟩ := List.getElem?_eq_some_iff.1 hc
  obtain ⟨hj, rfl⟩ := List.getElem?_eq_some_iff.1 hd
  by_contra hlt
  have hless := List.pairwise_iff_getElem.1 h j i hj hi (Nat.lt_of_not_le hlt)
  exact UInt64.not_lt.2 hle hless

/-- The children that references lead to, each with its place. -/
def childrenAt (table : SlotTable) (t : SyntaxTree) (refs : List Reference) :
    List (SyntaxTree × Nat) :=
  refs.filterMap (t.childAt? table)

end SyntaxTree

namespace TreeNode

variable {ctx : TreeContext}

/-- The element lists its values, each of them a child of its node, and these children come in the
    order that they have there. -/
structure ReportsInOrder (e : Element (TreeNode ctx)) (refs : List Reference) : Prop where
  listed : e.valuesOrder = .ok refs
  child : ∀ ref ∈ refs, ∃ c i, e.node.tree.childAt? ctx.table ref = some (c, i) ∧
    e.node.tree.children[i]? = some c ∧ Reads e ref c
  increasing : (e.node.tree.childrenAt ctx.table refs).Pairwise fun c d => c.2 < d.2
  inOrder : (e.node.tree.childrenAt ctx.table refs).Sublist e.node.tree.children.zipIdx

/-- A value that leads to a child is sorted by the start of this child. -/
theorem start_of_reads {e : Element (TreeNode ctx)} {v : Emitted} (hv : v ∈ e.emitted)
    {c : SyntaxTree} (hreads : Reads e v.reference c) : v.start = some c.label.startByte := by
  unfold Reads at hreads
  rcases Element.cases_of_mem_emitted hv with ⟨r, -, hfeature, hstart⟩ | ⟨p, -, hfeature, hstart⟩
  · rw [hfeature] at hreads
    obtain ⟨ns, hns, hc⟩ := hreads
    have hnodes : e.nodesOf r = ns := by
      rw [Element.nodesOf, hns]
      rfl
    rw [hnodes, hc] at hstart
    exact (Option.some.inj hstart).symm
  · rw [hfeature] at hreads
    obtain ⟨vs, hvs, hc⟩ := hreads
    have hvalues : e.valuesOf p = vs := by
      rw [Element.valuesOf, hvs]
      rfl
    rw [hvalues, hc] at hstart
    exact (Option.some.inj hstart).symm

namespace ReportsOnce

variable {e : Element (TreeNode ctx)} {refs : List Reference}

/-- If siblings advance, the children that the values lead to have increasing places. -/
theorem increasing (h : ReportsOnce e refs) (hread : e.Readable)
    (hadvance : e.node.tree.children.Pairwise fun a b => a.label.startByte < b.label.startByte) :
    (e.node.tree.childrenAt ctx.table refs).Pairwise fun c d => c.2 < d.2 := by
  obtain rfl := Except.ok.inj (hread.valuesOrder_eq.symm.trans h.listed)
  have hsorted := List.pairwise_mergeSort Emitted.le_trans Emitted.le_total e.emitted
  have hdistinct := List.pairwise_map.1 h.nodup
  refine List.pairwise_filterMap.2 (List.pairwise_map.2 ((hsorted.and hdistinct).imp_of_mem ?_))
  rintro v w hv hw ⟨hle, hne⟩ ⟨c, i⟩ hc ⟨d, j⟩ hd
  have hvref := List.mem_map_of_mem (f := Emitted.reference) hv
  have hwref := List.mem_map_of_mem (f := Emitted.reference) hw
  obtain ⟨hci, hvreads⟩ := h.child _ hvref c i hc
  obtain ⟨hdj, hwreads⟩ := h.child _ hwref d j hd
  have hstarts : c.label.startByte ≤ d.label.startByte := by
    unfold Emitted.le at hle
    rw [start_of_reads (List.mem_mergeSort.1 hv) hvreads,
      start_of_reads (List.mem_mergeSort.1 hw) hwreads] at hle
    exact of_decide_eq_true hle
  refine Nat.lt_of_le_of_ne (SyntaxTree.le_of_startByte_le hadvance hci hdj hstarts) ?_
  rintro rfl
  exact hne (h.once _ hvref _ hwref c d i hc hd)

/-- Children with increasing places are some of all children, in their order. -/
theorem inOrder (h : ReportsOnce e refs)
    (hincreasing : (e.node.tree.childrenAt ctx.table refs).Pairwise fun c d => c.2 < d.2) :
    (e.node.tree.childrenAt ctx.table refs).Sublist e.node.tree.children.zipIdx := by
  have hplaces : e.node.tree.children.zipIdx.Pairwise fun c d => c.2 < d.2 := by
    rw [← List.pairwise_map (f := Prod.snd), List.zipIdx_map_snd]
    exact List.pairwise_lt_range'
  have hsubset : e.node.tree.childrenAt ctx.table refs ⊆ e.node.tree.children.zipIdx := by
    rintro ⟨c, i⟩ hc
    obtain ⟨ref, href, hplace⟩ := List.mem_filterMap.1 hc
    exact List.mk_mem_zipIdx_iff_getElem?.2 (h.child ref href c i hplace).1
  have hnodup : (e.node.tree.childrenAt ctx.table refs).Nodup :=
    hincreasing.imp fun hlt heq => Nat.ne_of_lt hlt (congrArg Prod.snd heq)
  have hantisymm : Std.Antisymm fun c d : SyntaxTree × Nat => c.2 < d.2 :=
    ⟨fun _ _ hlt hgt => absurd hlt (Nat.lt_asymm hgt)⟩
  exact List.sublist_of_subperm_of_pairwise (List.subperm_of_subset hnodup hsubset) hincreasing
    hplaces

end ReportsOnce

end TreeNode

/-! ## Nodes that are no leaves -/

namespace Grammar

variable {types before : List NodeType} {t : NodeType}

/-- No field has the name of a position. -/
def FieldsUnreserved (types : List NodeType) : Prop :=
  ∀ t ∈ types, ∀ f ∈ t.fields.toList, Position.ofName? f.1 = none

instance (types : List NodeType) : Decidable (FieldsUnreserved types) :=
  inferInstanceAs (Decidable (∀ t ∈ types, _))

/-- The nodes of a kind are leaves with a text. -/
def TextLeaf (types : List NodeType) (kind : String) : Prop :=
  ∃ t ∈ describedOf types, t.kind = kind ∧ isLeaf t = true

instance (types : List NodeType) (kind : String) : Decidable (TextLeaf types kind) :=
  inferInstanceAs (Decidable (∃ t ∈ describedOf types, _))

theorem mem_of_mem_describedOf (h : t ∈ describedOf types) : t ∈ types :=
  (List.mem_filter.1 h).1

/-- All values of a node that is no leaf are children. -/
theorem exists_childAt? (hd : DistinctKinds types) (hfields : FieldsUnreserved types)
    (chars : List Char) {n : SyntaxTree} {entity : Entity}
    (hentity : (derive types).1.entity? n.kind = some entity) (hleaf : ¬ TextLeaf types n.kind)
    {ref : Reference} (href : ref ∈ (n.element (contextIn types chars) entity).references) :
    ∃ c i, n.childAt? (derive types).2 ref = some (c, i) := by
  cases h : n.childAt? (derive types).2 ref with
  | some place => exact ⟨place.1, place.2, rfl⟩
  | none =>
    obtain ⟨p, hp, -, hown⟩ := TreeNode.exists_property_of_childAt?_eq_none
      (agrees_of_straysFit (straysFit_of_distinctKinds hd)) (keptApart_derive types) hentity href h
    obtain ⟨before, t, hlast, hkind, rfl⟩ := exists_lastOfKind_of_entity? hentity
    rcases mem_properties_entityOf.1 hp with ⟨x, hx, -, rfl⟩ | ⟨hl, -⟩
    · rcases hown with ⟨-, hsome⟩ | hslot
      · rw [hfields t (mem_of_mem_describedOf hlast.mem) x hx] at hsome
        cases hsome
      · change (derive types).2.propertySlot? n.kind x.1 = some .text at hslot
        rw [← hkind, propertySlot?_field hlast hx, latest_before_eq_none hd hlast] at hslot
        cases hslot
    · exact absurd ⟨t, hlast.mem, hkind, hl⟩ hleaf

/-- Values come in the order of the source: where siblings advance, the values of a node that is no
    leaf are children of it, in the order that they have there. -/
theorem exists_reportsInOrder {types : List NodeType} (hd : DistinctKinds types)
    (hfields : FieldsUnreserved types) (chars : List Char) (root : SyntaxTree)
    (hadvance : root.SiblingsAdvance) (n : SyntaxTree) (hn : n ∈ root.nodes) (entity : Entity)
    (hentity : (derive types).1.entity? n.kind = some entity) (hleaf : ¬ TextLeaf types n.kind) :
    ∃ refs, TreeNode.ReportsInOrder (n.element (contextIn types chars) entity) refs := by
  have hread := readable_of_distinctKinds hd chars _ _ (TreeNode.wrap_eq hentity)
  obtain ⟨refs, honce⟩ := exists_reportsOnce hd chars n entity hentity
  obtain ⟨refs', hrefs', hperm⟩ := hread.exists_valuesOrder
  obtain rfl := Except.ok.inj (hrefs'.symm.trans honce.listed)
  have hincreasing := honce.increasing hread (hadvance n hn)
  refine ⟨refs', honce.listed, ?_, hincreasing, honce.inOrder hincreasing⟩
  intro ref href
  obtain ⟨c, i, hplace⟩ :=
    exists_childAt? hd hfields chars hentity hleaf (hperm.mem_iff.1 href)
  exact ⟨c, i, hplace, honce.child ref href c i hplace⟩

/-- The sum of the block, as an element. -/
def sumElement : Element (TreeNode (contextIn sumTypes "a + b // c".toList)) :=
  SyntaxTree.element _
    (.node ⟨"sum", true, none, 0, 5, 0, 0⟩
      [.node ⟨"name", true, some "left", 0, 1, 0, 0⟩ [],
        .node ⟨"+", false, some "operator", 2, 3, 0, 2⟩ [],
        .node ⟨"name", true, some "right", 4, 5, 0, 4⟩ []])
    ⟨"sum", [⟨"operator", .single⟩],
      [⟨"left", .single, ["_term"]⟩, ⟨"right", .single, ["_term"]⟩]⟩

/-- The operator is emitted behind both terms. -/
theorem emission_sumElement : sumElement.emission =
    .ok [⟨⟨.relation ⟨"left", .single, ["_term"]⟩, 0⟩, some 0⟩,
      ⟨⟨.relation ⟨"right", .single, ["_term"]⟩, 0⟩, some 4⟩,
      ⟨⟨.property ⟨"operator", .single⟩, 0⟩, some 2⟩] := by
  have hlast : LastOfKind sumTypes [] sumTypes[1] := ⟨_, rfl, by decide⟩
  have happart := keptApart_derive sumTypes
  have hterm (name : String)
      (hf : (name, ⟨false, true, [⟨"_term", true⟩]⟩) ∈ sumTypes[1].fields.toList) :
      sumElement.relationRaw name =
        .ok (TreeNode.slotRaw _ sumElement.node.tree name (.field false false)) := by
    have hslot : (derive sumTypes).2.relationSlot? "sum" name = some (.field false false) :=
      relationSlot?_field hlast hf
    exact TreeNode.relationRaw_eq happart _ hslot
  have hleft : sumElement.relationEmission ⟨"left", .single, ["_term"]⟩ =
      .ok [⟨⟨.relation ⟨"left", .single, ["_term"]⟩, 0⟩, some 0⟩] := by
    rw [Element.relationEmission, Element.childNode?, hterm "left" (by decide)]
    rfl
  have hright : sumElement.relationEmission ⟨"right", .single, ["_term"]⟩ =
      .ok [⟨⟨.relation ⟨"right", .single, ["_term"]⟩, 0⟩, some 4⟩] := by
    rw [Element.relationEmission, Element.childNode?, hterm "right" (by decide)]
    rfl
  have hoperator : sumElement.propertyEmission ⟨"operator", .single⟩ =
      .ok [⟨⟨.property ⟨"operator", .single⟩, 0⟩, some 2⟩] := by
    have hslot : (derive sumTypes).2.propertySlot? "sum" "operator" = some (.field false true) :=
      propertySlot?_field hlast (f := ("operator", ⟨false, true, [⟨"+", false⟩]⟩)) (by decide)
    have hraw : sumElement.propertyRaw "operator" = _ := TreeNode.propertyRaw_eq happart _ hslot
    rw [Element.propertyEmission, Element.singleProperty, hraw]
    rfl
  change (do
    let relations ← [_, _].mapM sumElement.relationEmission
    let properties ← [_].mapM sumElement.propertyEmission
    pure (relations.flatten ++ properties.flatten)) = _
  simp only [List.mapM_cons, List.mapM_nil, hleft, hright, hoperator]
  rfl

theorem exists_reportsInOrder_sumBlock :
    DistinctKinds sumTypes ∧ FieldsUnreserved sumTypes ∧ sumBlock.SiblingsAdvance ∧
      ∃ n ∈ sumBlock.nodes, ∃ entity, (derive sumTypes).1.entity? n.kind = some entity ∧
        ¬ TextLeaf sumTypes n.kind ∧ ∃ refs,
          TreeNode.ReportsInOrder (n.element (contextIn sumTypes "a + b // c".toList) entity) refs ∧
          refs.map (fun ref => ref.feature.name) = ["left", "operator", "right"] := by
  have hdistinct : DistinctKinds sumTypes := by decide
  have hfields : FieldsUnreserved sumTypes := by decide
  have hadvance : sumBlock.SiblingsAdvance := by decide +kernel
  have hmem : sumElement.node.tree ∈ sumBlock.nodes :=
    SyntaxTree.mem_nodes_of_mem_children List.mem_cons_self (SyntaxTree.self_mem_nodes _)
  have hentity : (derive sumTypes).1.entity? "sum" = some sumElement.entity := by decide
  have hleaf : ¬ TextLeaf sumTypes "sum" := by decide +kernel
  obtain ⟨refs, hrefs⟩ := exists_reportsInOrder hdistinct hfields "a + b // c".toList sumBlock
    hadvance _ hmem _ hentity hleaf
  refine ⟨hdistinct, hfields, hadvance, _, hmem, _, hentity, hleaf, refs, hrefs, ?_⟩
  have hlisted : sumElement.valuesOrder = .ok refs := hrefs.listed
  rw [Element.valuesOrder, emission_sumElement] at hlisted
  obtain rfl := Except.ok.inj hlisted
  cbv

end Grammar

end SourceOutline
