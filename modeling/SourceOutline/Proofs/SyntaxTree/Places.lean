import SourceOutline.Proofs.SyntaxTree.Answers

/-
  Where the values that an element lists stand among the children of its node.

  A reference to a child has a place (`childAt?`), and what it leads to is the child there
  (`reads_of_childAt?`). The other references are to the text of the node and to positions that
  stand in for a property (`showsOwn_of_childAt?_eq_none`). In the grammar of node types of
  distinct kinds no child is taken by two features: a label belongs to one field, and the claims on
  children without label are disjoint (`feature_unique`). So no place has two references
  (`exists_reportsOnce`).
-/

namespace SourceOutline

/-! ## The places that a slot gives -/

namespace Slot

/-- The children that a slot gives, each with its place. -/
def placed (slot : Slot) (name : String) (t : SyntaxTree) : List (SyntaxTree × Nat) :=
  slot.keep (t.children.zipIdx.filter fun c => slot.takes name c.1)

theorem map_fst_placed (slot : Slot) (name : String) (t : SyntaxTree) :
    (slot.placed name t).map Prod.fst = slot.childrenOf name t := by
  have hfilter : (t.children.zipIdx.filter fun c => slot.takes name c.1).map Prod.fst =
      t.children.filter (slot.takes name) := by
    conv_rhs => rw [← List.zipIdx_map_fst 0 t.children, List.filter_map]
    rfl
  rw [placed, childrenOf, ← hfilter, keep_map]

theorem placed_sublist (slot : Slot) (name : String) (t : SyntaxTree) :
    (slot.placed name t).Sublist t.children.zipIdx :=
  (slot.keep_sublist _).trans List.filter_sublist

/-- A slot gives each place once. -/
theorem places_nodup (slot : Slot) (name : String) (t : SyntaxTree) :
    ((slot.placed name t).map Prod.snd).Nodup := by
  refine List.Nodup.sublist ((slot.placed_sublist name t).map _) ?_
  rw [List.zipIdx_map_snd]
  exact List.nodup_range'

theorem takes_of_mem_placed {slot : Slot} {name : String} {t c : SyntaxTree} {i : Nat}
    (h : (c, i) ∈ slot.placed name t) : slot.takes name c = true :=
  (List.mem_filter.1 ((slot.keep_sublist _).subset h)).2

theorem getElem?_of_mem_placed {slot : Slot} {name : String} {t c : SyntaxTree} {i : Nat}
    (h : (c, i) ∈ slot.placed name t) : t.children[i]? = some c :=
  List.mk_mem_zipIdx_iff_getElem?.1 ((slot.placed_sublist name t).subset h)

/-- A place stands at one index among those that a slot gives. -/
theorem index_unique {slot : Slot} {name : String} {t c d : SyntaxTree} {i j k : Nat}
    (hj : (slot.placed name t)[j]? = some (c, i)) (hk : (slot.placed name t)[k]? = some (d, i)) :
    j = k := by
  have hj' : ((slot.placed name t).map Prod.snd)[j]? = some i := by
    rw [List.getElem?_map, hj]
    rfl
  have hk' : ((slot.placed name t).map Prod.snd)[k]? = some i := by
    rw [List.getElem?_map, hk]
    rfl
  obtain ⟨hlt, -⟩ := List.getElem?_eq_some_iff.1 hj'
  exact (List.getElem?_inj hlt (slot.places_nodup name t)).1 (hj'.trans hk'.symm)

theorem getElem?_childrenOf (slot : Slot) (name : String) (t : SyntaxTree) (k : Nat) :
    (slot.childrenOf name t)[k]? = ((slot.placed name t)[k]?).map Prod.fst := by
  rw [← map_fst_placed, List.getElem?_map]

end Slot

/-! ## The places of references -/

/-- The slot whose children a feature shows. A position that stands in for a property shows
    none. -/
def SlotTable.childSlot? (table : SlotTable) (rule : String) : Feature → Option Slot
  | .property p => if TreeNode.ShowsPosition p then none else table.propertySlot? rule p.name
  | .relation r => table.relationSlot? rule r.name

/-- The child that a reference leads to, with its place. -/
def SyntaxTree.childAt? (table : SlotTable) (t : SyntaxTree) (ref : Reference) :
    Option (SyntaxTree × Nat) :=
  (table.childSlot? t.kind ref.feature).bind fun slot =>
    (slot.placed ref.feature.name t)[ref.index]?

def Entity.Declares (e : Entity) : Feature → Prop
  | .property p => p ∈ e.properties
  | .relation r => r ∈ e.relations

theorem Element.declares_of_mem_references {ν : Type} [SyntaxNode ν] {e : Element ν}
    {ref : Reference} (h : ref ∈ e.references) : e.entity.Declares ref.feature := by
  obtain ⟨p | r, i⟩ := ref
  · exact (mem_references_property.1 h).1
  · exact (mem_references_relation.1 h).1

namespace TreeNode

variable {ctx : TreeContext}

/-- The reference leads to this child: as the node of an element, or as a token. -/
def Reads (e : Element (TreeNode ctx)) (ref : Reference) (c : SyntaxTree) : Prop :=
  match ref.feature with
  | .property p => ∃ vs, e.valuesUnder p = .ok vs ∧ vs[ref.index]? = some (valueOf ctx c)
  | .relation r => ∃ ns, e.childrenUnder r = .ok ns ∧ ns[ref.index]? = some ⟨c⟩

/-- The reference leads to no child: it shows a position of the node, or the text of it. -/
def ShowsOwn (e : Element (TreeNode ctx)) (ref : Reference) : Prop :=
  ∃ p, ref.feature = .property p ∧
    (ShowsPosition p ∨ e.valuesUnder p = .ok [valueOf ctx e.node.tree])

/-- The element lists its values, each child at most once. -/
structure ReportsOnce (e : Element (TreeNode ctx)) (refs : List Reference) : Prop where
  listed : e.valuesOrder = .ok refs
  nodup : refs.Nodup
  child : ∀ ref ∈ refs, ∀ c i, e.node.tree.childAt? ctx.table ref = some (c, i) →
    e.node.tree.children[i]? = some c ∧ Reads e ref c
  other : ∀ ref ∈ refs, e.node.tree.childAt? ctx.table ref = none → ShowsOwn e ref
  once : ∀ a ∈ refs, ∀ b ∈ refs, ∀ c d i, e.node.tree.childAt? ctx.table a = some (c, i) →
    e.node.tree.childAt? ctx.table b = some (d, i) → a = b

/-! ## Where references lead -/

theorem childrenOf_text (name : String) (t : SyntaxTree) : Slot.text.childrenOf name t = [] := by
  have hfilter : t.children.filter (Slot.text.takes name) = [] :=
    List.filter_eq_nil_iff.2 fun _ _ => Bool.false_ne_true
  rw [Slot.childrenOf, hfilter]
  rfl

section Agreeing

variable {m : Metamodel} {t : SyntaxTree} {entity : Entity}

/-- A reference with a place leads to the child there. -/
theorem reads_of_childAt? (hagree : Agrees m ctx.table) (hapart : ctx.table.KeptApart)
    (hentity : m.entity? t.kind = some entity) {ref : Reference}
    (hdeclared : entity.Declares ref.feature) {c : SyntaxTree} {i : Nat}
    (h : t.childAt? ctx.table ref = some (c, i)) :
    t.children[i]? = some c ∧ Reads (t.element ctx entity) ref c := by
  obtain ⟨slot, hslot, hplaced⟩ := Option.bind_eq_some_iff.1 h
  refine ⟨Slot.getElem?_of_mem_placed (List.mem_of_getElem? hplaced), ?_⟩
  have hchild : (slot.childrenOf ref.feature.name t)[ref.index]? = some c := by
    rw [Slot.getElem?_childrenOf, hplaced]
    rfl
  obtain ⟨p | r, k⟩ := ref
  · obtain ⟨found, hfound, hserves⟩ := exists_slot_of_property hagree hentity hdeclared
    simp only [SlotTable.childSlot?] at hslot
    split at hslot
    · cases hslot
    · next hp =>
      obtain rfl := Option.some.inj (hfound.symm.trans hslot)
      refine ⟨_, valuesUnder_eq hapart hfound hserves hp, ?_⟩
      cases found with
      | text =>
        rw [childrenOf_text] at hchild
        cases hchild
      | field multiple tokens => exact (List.getElem?_map ..).trans (congrArg _ hchild)
      | children kinds multiple => cases hserves
  · obtain ⟨found, hfound, hserves⟩ := exists_slot_of_relation hagree hentity hdeclared
    obtain rfl := Option.some.inj (hfound.symm.trans hslot)
    exact ⟨_, childrenUnder_eq hapart hfound hserves,
      (List.getElem?_map ..).trans (congrArg _ hchild)⟩

theorem lt_childrenOf_iff {slot : Slot} {name : String} {k : Nat} :
    k < (slot.childrenOf name t).length ↔ (slot.placed name t)[k]? ≠ none := by
  rw [← Slot.map_fst_placed, List.length_map, Ne, List.getElem?_eq_none_iff, Nat.not_le]

/-- A reference without a place is to a property that shows a position, or the text of the
    node. -/
theorem exists_property_of_childAt?_eq_none (hagree : Agrees m ctx.table)
    (hapart : ctx.table.KeptApart) (hentity : m.entity? t.kind = some entity) {ref : Reference}
    (href : ref ∈ (t.element ctx entity).references)
    (h : t.childAt? ctx.table ref = none) :
    ∃ p ∈ entity.properties, ref.feature = .property p ∧
      (ShowsPosition p ∨ ctx.table.propertySlot? t.kind p.name = some .text) := by
  obtain ⟨p | r, k⟩ := ref
  · obtain ⟨hp, hk⟩ := Element.mem_references_property.1 href
    refine ⟨p, hp, rfl, ?_⟩
    by_cases hshows : ShowsPosition p
    · exact .inl hshows
    · obtain ⟨slot, hslot, hserves⟩ := exists_slot_of_property hagree hentity hp
      have hvalues : (t.element ctx entity).valuesUnder p = .ok (slotValues ctx t p.name slot) :=
        valuesUnder_eq hapart hslot hserves hshows
      cases slot with
      | text => exact .inr hslot
      | children kinds multiple => cases hserves
      | field multiple tokens =>
        simp only [Element.valuesOf, hvalues, Except.toOption, Option.getD_some, slotValues,
          List.length_map] at hk
        simp only [SyntaxTree.childAt?, SlotTable.childSlot?, if_neg hshows, hslot,
          Option.bind_some] at h
        exact absurd h (lt_childrenOf_iff.1 hk)
  · obtain ⟨hr, hk⟩ := Element.mem_references_relation.1 href
    obtain ⟨slot, hslot, hserves⟩ := exists_slot_of_relation hagree hentity hr
    have hnodes : (t.element ctx entity).childrenUnder r =
        .ok ((slot.childrenOf r.name t).map TreeNode.mk) := childrenUnder_eq hapart hslot hserves
    simp only [Element.nodesOf, hnodes, Except.toOption, Option.getD_some, List.length_map] at hk
    simp only [SyntaxTree.childAt?, SlotTable.childSlot?, hslot, Option.bind_some] at h
    exact absurd h (lt_childrenOf_iff.1 hk)

/-- A reference without a place shows something of the node itself. -/
theorem showsOwn_of_childAt?_eq_none (hagree : Agrees m ctx.table)
    (hapart : ctx.table.KeptApart) (hentity : m.entity? t.kind = some entity) {ref : Reference}
    (href : ref ∈ (t.element ctx entity).references)
    (h : t.childAt? ctx.table ref = none) :
    ShowsOwn (t.element ctx entity) ref := by
  obtain ⟨p, hp, hfeature, hown⟩ :=
    exists_property_of_childAt?_eq_none hagree hapart hentity href h
  refine ⟨p, hfeature, ?_⟩
  by_cases hshows : ShowsPosition p
  · exact .inl hshows
  · have htext := hown.resolve_left hshows
    obtain ⟨slot, hslot, hserves⟩ := exists_slot_of_property hagree hentity hp
    obtain rfl := Option.some.inj (hslot.symm.trans htext)
    exact .inr (valuesUnder_eq hapart hslot hserves hshows)

end Agreeing

end TreeNode

/-! ## One feature for each child -/

namespace Grammar

variable {types before : List NodeType} {t : NodeType}

/-- The feature that a field becomes. -/
def fieldFeature (f : String × ChildSpec) : Feature :=
  if holdsTokens f.2 then .property ⟨f.1, .ofMultiple f.2.multiple⟩
  else .relation ⟨f.1, .ofMultiple f.2.multiple, namedKinds f.2.types⟩

/-- The relation that a claim on the children becomes. -/
def claimRelation (t : NodeType) (c : ChildClaim) : Relation :=
  ⟨c.name, .ofMultiple (childrenMultiple t), [c.target]⟩

/-- A child that a feature shows bears the label of its field, or no label and a kind of its
    claim. -/
theorem cases_of_takes (hd : DistinctKinds types) (hlast : LastOfKind types before t)
    {f : Feature} (hf : (entityOf (Supertypes.ofTypes types) t).Declares f) {slot : Slot}
    (hslot : (derive types).2.childSlot? t.kind f = some slot) {c : SyntaxTree}
    (hc : slot.takes f.name c = true) :
    (∃ x ∈ t.fields.toList, c.label.field = some x.1 ∧ f = fieldFeature x) ∨
      ∃ k ∈ childClaims (Supertypes.ofTypes types) t,
        c.label.field = none ∧ c.kind ∈ k.kinds ∧ f = .relation (claimRelation t k) := by
  have hfield : ∀ x : String × ChildSpec, slot = fieldSlot x.2 → f.name = x.1 →
      c.label.field = some x.1 := by
    rintro x rfl hname
    rw [hname] at hc
    exact of_decide_eq_true (Bool.and_eq_true_iff.1 hc).1
  cases f with
  | property p =>
    simp only [SlotTable.childSlot?] at hslot
    split at hslot
    · cases hslot
    rcases mem_properties_entityOf.1 hf with ⟨x, hx, htokens, rfl⟩ | ⟨hl, rfl⟩
    · rw [propertySlot?_field hlast hx, latest_before_eq_none hd hlast, Option.none_or] at hslot
      exact .inl ⟨x, hx, hfield x (Option.some.inj hslot).symm rfl, (if_pos htokens).symm⟩
    · rw [propertySlot?_text hlast hl] at hslot
      cases hslot
      cases hc
  | relation r =>
    rcases mem_relations_entityOf.1 hf with ⟨x, hx, htokens, rfl⟩ | ⟨k, hk, rfl⟩
    · rw [SlotTable.childSlot?, relationSlot?_field hlast hx] at hslot
      have hnot : ¬ holdsTokens x.2 = true := by simp [htokens]
      exact .inl ⟨x, hx, hfield x (Option.some.inj hslot).symm rfl, (if_neg hnot).symm⟩
    · rw [SlotTable.childSlot?, relationSlot?_claim hlast hk, latest_before_eq_none hd hlast,
        Option.none_or] at hslot
      cases hslot
      simp only [Slot.takes, Bool.and_eq_true, Option.isNone_iff_eq_none, decide_eq_true_eq] at hc
      exact .inr ⟨k, hk, hc.1.2, hc.2, rfl⟩

/-- No child is shown by two features. -/
theorem feature_unique (hd : DistinctKinds types) (hlast : LastOfKind types before t)
    {f g : Feature} (hf : (entityOf (Supertypes.ofTypes types) t).Declares f)
    (hg : (entityOf (Supertypes.ofTypes types) t).Declares g) {a b : Slot}
    (ha : (derive types).2.childSlot? t.kind f = some a)
    (hb : (derive types).2.childSlot? t.kind g = some b) {c : SyntaxTree}
    (hac : a.takes f.name c = true) (hbc : b.takes g.name c = true) : f = g := by
  rcases cases_of_takes hd hlast hf ha hac with ⟨x, hx, hlabel, rfl⟩ | ⟨k, hk, hlabel, hkind, rfl⟩
  · rcases cases_of_takes hd hlast hg hb hbc with ⟨y, hy, hlabel', rfl⟩ | ⟨-, -, hlabel', -⟩
    · obtain ⟨name, spec⟩ := x
      obtain ⟨name', spec'⟩ := y
      obtain rfl : name = name' := Option.some.inj (hlabel.symm.trans hlabel')
      rw [field_unique hx hy]
    · cases hlabel.symm.trans hlabel'
  · rcases cases_of_takes hd hlast hg hb hbc with ⟨y, hy, hlabel', -⟩ | ⟨k', hk', -, hkind', rfl⟩
    · cases hlabel.symm.trans hlabel'
    · rw [childClaim_unique hk hk' hkind hkind']

theorem relations_nodup (s : Supertypes) (t : NodeType) : (entityOf s t).relations.Nodup :=
  List.Nodup.of_map _ (List.nodup_append.1 (featureNames_nodup s t)).2.1

theorem properties_nodup (s : Supertypes) (t : NodeType) : (entityOf s t).properties.Nodup :=
  List.Nodup.of_map _ (List.nodup_append.1 (featureNames_nodup s t)).1

/-- A place among the children has one reference. -/
theorem reference_unique (hd : DistinctKinds types) (hlast : LastOfKind types before t)
    {n : SyntaxTree} (hkind : n.kind = t.kind) {a b : Reference}
    (ha : (entityOf (Supertypes.ofTypes types) t).Declares a.feature)
    (hb : (entityOf (Supertypes.ofTypes types) t).Declares b.feature) {c d : SyntaxTree} {i : Nat}
    (hac : n.childAt? (derive types).2 a = some (c, i))
    (hbd : n.childAt? (derive types).2 b = some (d, i)) : a = b := by
  obtain ⟨slot, hslot, hj⟩ := Option.bind_eq_some_iff.1 hac
  obtain ⟨slot', hslot', hk⟩ := Option.bind_eq_some_iff.1 hbd
  have hmem := List.mem_of_getElem? hj
  have hmem' := List.mem_of_getElem? hk
  obtain rfl : c = d := Option.some.inj
    ((Slot.getElem?_of_mem_placed hmem).symm.trans (Slot.getElem?_of_mem_placed hmem'))
  rw [hkind] at hslot hslot'
  obtain ⟨f, j⟩ := a
  obtain ⟨g, k⟩ := b
  obtain rfl : f = g := feature_unique hd hlast ha hb hslot hslot'
    (Slot.takes_of_mem_placed hmem) (Slot.takes_of_mem_placed hmem')
  obtain rfl := Option.some.inj (hslot.symm.trans hslot')
  exact congrArg (Reference.mk f) (Slot.index_unique hj hk)

theorem exists_reportsOnce (hd : DistinctKinds types) (chars : List Char) (n : SyntaxTree)
    (entity : Entity) (hentity : (derive types).1.entity? n.kind = some entity) :
    ∃ refs, TreeNode.ReportsOnce (n.element (contextIn types chars) entity) refs := by
  obtain ⟨before, t, hlast, hkind, rfl⟩ := exists_lastOfKind_of_entity? hentity
  have hagree := agrees_of_straysFit (straysFit_of_distinctKinds hd)
  have hapart := keptApart_derive types
  have hread := readable_of_distinctKinds hd chars _ _ (TreeNode.wrap_eq hentity)
  obtain ⟨refs, hrefs, hperm⟩ := hread.exists_valuesOrder
  have hdeclared : ∀ ref ∈ refs, (entityOf (Supertypes.ofTypes types) t).Declares ref.feature :=
    fun ref href => Element.declares_of_mem_references (hperm.mem_iff.1 href)
  refine ⟨refs, hrefs, ?_, ?_, ?_, ?_⟩
  · exact hperm.nodup_iff.2 (Element.references_nodup (relations_nodup _ t) (properties_nodup _ t))
  · intro ref href c i h
    exact TreeNode.reads_of_childAt? hagree hapart hentity (hdeclared ref href) h
  · intro ref href h
    exact TreeNode.showsOwn_of_childAt?_eq_none hagree hapart hentity (hperm.mem_iff.1 href) h
  · intro a ha b hb c d i hac hbd
    exact reference_unique hd hlast hkind.symm (hdeclared a ha) (hdeclared b hb) hac hbd

end Grammar

end SourceOutline
