import SourceOutline.Proofs.Element.Readable
import SourceOutline.Proofs.Grammar.Agreement
import SourceOutline.Proofs.Text.Bytes
import SourceOutline.SyntaxTree.Node

/-
  What the nodes of a parse tree answer under the names of a slot table.

  A slot gives the children that it takes (`Slot.takes`), the first of them alone if it holds one
  (`Slot.childrenOf`). With a slot that serves a feature this is what the feature holds
  (`childrenUnder_eq`, `valuesUnder_eq`). So where a metamodel and a table agree, every node that
  has an entity can be read, whatever its tree looks like (`readable_of_agrees`).
-/

namespace SourceOutline

/-! ## Slots kept apart -/

/-- Only fields stand among the fields of a table, and none among the accessors. -/
structure SlotTable.KeptApart (table : SlotTable) : Prop where
  field : ∀ {rule name slot}, table.field? rule name = some slot →
    ∃ multiple tokens, slot = .field multiple tokens
  accessor : ∀ {rule name slot}, table.accessor? rule name = some slot →
    ∀ multiple tokens, slot ≠ .field multiple tokens

theorem Grammar.exists_mem_of_latest {slots : NodeType → List (String × Slot)}
    {rule name : String} {slot : Slot} {types : List NodeType}
    (h : latest slots rule name types = some slot) : ∃ t ∈ types, (name, slot) ∈ slots t := by
  obtain ⟨t, ht, hslot⟩ := exists_of_lastSome h
  split at hslot
  · exact ⟨t, ht, mem_of_slotUnder hslot⟩
  · cases hslot

theorem Grammar.keptApart_derive (types : List NodeType) : (derive types).2.KeptApart where
  field := by
    intro rule name slot h
    rw [field?_derive] at h
    obtain ⟨t, -, hslot⟩ := exists_mem_of_latest h
    obtain ⟨f, -, heq⟩ := List.mem_map.1 hslot
    cases heq
    exact ⟨_, _, rfl⟩
  accessor := by
    intro rule name slot h multiple tokens
    rw [accessor?_derive] at h
    obtain ⟨t, -, hslot⟩ := exists_mem_of_latest h
    rcases List.mem_append.1 hslot with hslot | hslot
    · obtain ⟨c, -, heq⟩ := List.mem_map.1 hslot
      cases heq
      simp
    · split at hslot
      · cases List.mem_singleton.1 hslot
        simp
      · simp at hslot

/-! ## The nodes of a tree -/

namespace SyntaxTree

mutual

/-- A tree and all trees inside it, in preorder. -/
def nodes : SyntaxTree → List SyntaxTree
  | .node l children => .node l children :: nodesOf children

def nodesOf : List SyntaxTree → List SyntaxTree
  | [] => []
  | t :: ts => t.nodes ++ nodesOf ts

end

theorem nodes_eq (t : SyntaxTree) : t.nodes = t :: nodesOf t.children := by
  cases t
  rfl

theorem self_mem_nodes (t : SyntaxTree) : t ∈ t.nodes := by
  rw [nodes_eq]
  exact List.mem_cons_self

theorem mem_nodesOf {n : SyntaxTree} {ts : List SyntaxTree} :
    n ∈ nodesOf ts ↔ ∃ t ∈ ts, n ∈ t.nodes := by
  induction ts with
  | nil => simp [nodesOf]
  | cons t ts ih => simp [nodesOf, ih]

theorem mem_nodes_of_mem_children {t c n : SyntaxTree} (hc : c ∈ t.children) (hn : n ∈ c.nodes) :
    n ∈ t.nodes := by
  rw [nodes_eq]
  exact List.mem_cons_of_mem _ (mem_nodesOf.2 ⟨c, hc, hn⟩)

end SyntaxTree

/-! ## The children that a slot gives -/

namespace Slot

/-- Whether a child is one that the slot under a name gives. -/
def takes (name : String) : Slot → SyntaxTree → Bool
  | .field _ tokens, c => c.label.field = some name && (tokens || c.label.named)
  | .children kinds _, c => c.label.named && c.label.field.isNone && decide (c.kind ∈ kinds)
  | .text, _ => false

/-- Whether the slot holds all that it takes, or the first only. -/
def multiple : Slot → Bool
  | .field multiple _ => multiple
  | .children _ multiple => multiple
  | .text => false

/-- All of a list, or the first only. -/
def keep {α : Type} (slot : Slot) (l : List α) : List α := if slot.multiple then l else l.take 1

/-- The children of a node that the slot under a name gives. -/
def childrenOf (slot : Slot) (name : String) (t : SyntaxTree) : List SyntaxTree :=
  slot.keep (t.children.filter (slot.takes name))

theorem keep_sublist {α : Type} (slot : Slot) (l : List α) : (slot.keep l).Sublist l := by
  unfold keep
  split
  · exact List.Sublist.refl l
  · exact List.take_sublist 1 l

theorem keep_map {α β : Type} (slot : Slot) (f : α → β) (l : List α) :
    slot.keep (l.map f) = (slot.keep l).map f := by
  unfold keep
  split
  · rfl
  · exact List.map_take.symm

theorem childrenOf_sublist (slot : Slot) (name : String) (t : SyntaxTree) :
    (slot.childrenOf name t).Sublist t.children :=
  (slot.keep_sublist _).trans List.filter_sublist

end Slot

/-- A node of a tree with its entity. -/
abbrev SyntaxTree.element (ctx : TreeContext) (t : SyntaxTree) (entity : Entity) :
    Element (TreeNode ctx) := ⟨⟨t⟩, entity⟩

namespace TreeNode

variable {ctx : TreeContext} {t : SyntaxTree} {entity : Entity}

/-- What a slot holds on a node. -/
def slotRaw (ctx : TreeContext) (t : SyntaxTree) (name : String) : Slot → Raw (TreeNode ctx)
  | .field multiple tokens => shapeOf ctx (fieldChildren t name tokens) multiple tokens
  | .children kinds multiple => shapeOf ctx (unlabelledChildren t kinds) multiple false
  | .text => .value (some (valueOf ctx t))

theorem accessorOf?_eq (h : ctx.table.KeptApart) (t : SyntaxTree) (name : String) :
    accessorOf? ctx t name = (ctx.table.accessor? t.kind name).map (slotRaw ctx t name) := by
  unfold accessorOf?
  cases hs : ctx.table.accessor? t.kind name with
  | none => rfl
  | some slot =>
    cases slot with
    | field multiple tokens => exact absurd rfl (h.accessor hs multiple tokens)
    | children kinds multiple => rfl
    | text => rfl

theorem fieldOf?_eq (h : ctx.table.KeptApart) (t : SyntaxTree) (name : String) :
    fieldOf? ctx t name = (ctx.table.field? t.kind name).map (slotRaw ctx t name) := by
  unfold fieldOf?
  cases hs : ctx.table.field? t.kind name with
  | none => rfl
  | some slot =>
    obtain ⟨multiple, tokens, rfl⟩ := h.field hs
    rfl

theorem propertyRaw_eq (h : ctx.table.KeptApart) {name : String} {slot : Slot} (entity : Entity)
    (hs : ctx.table.propertySlot? t.kind name = some slot) :
    (t.element ctx entity).propertyRaw name = .ok (slotRaw ctx t name slot) := by
  have hraw : (SyntaxNode.accessor? (⟨t⟩ : TreeNode ctx) name).or
      (SyntaxNode.field? (⟨t⟩ : TreeNode ctx) name) = some (slotRaw ctx t name slot) := by
    show (accessorOf? ctx t name).or (fieldOf? ctx t name) = _
    rw [accessorOf?_eq h, fieldOf?_eq h, ← Option.map_or]
    exact congrArg (Option.map _) hs
  simp only [Element.propertyRaw, hraw]

theorem relationRaw_eq (h : ctx.table.KeptApart) {name : String} {slot : Slot} (entity : Entity)
    (hs : ctx.table.relationSlot? t.kind name = some slot) :
    (t.element ctx entity).relationRaw name = .ok (slotRaw ctx t name slot) := by
  have hraw : (SyntaxNode.field? (⟨t⟩ : TreeNode ctx) name).or
      (SyntaxNode.accessor? (⟨t⟩ : TreeNode ctx) name) = some (slotRaw ctx t name slot) := by
    show (fieldOf? ctx t name).or (accessorOf? ctx t name) = _
    rw [accessorOf?_eq h, fieldOf?_eq h, ← Option.map_or]
    exact congrArg (Option.map _) hs
  simp only [Element.relationRaw, hraw]

/-! ## What features hold -/

theorem slotRaw_of_servesRelation {slot : Slot} {multiplicity : Multiplicity}
    (h : slot.ServesRelation multiplicity) (ctx : TreeContext) (t : SyntaxTree) (name : String) :
    multiplicity = .ofMultiple slot.multiple ∧
      slotRaw ctx t name slot =
        shapeOf ctx (t.children.filter (slot.takes name)) slot.multiple false := by
  cases slot with
  | field multiple tokens =>
    obtain ⟨rfl, hm⟩ := h
    exact ⟨hm, rfl⟩
  | children kinds multiple => exact ⟨h, rfl⟩
  | text => cases h

theorem head?_map_toList {α β : Type} (l : List α) (f : α → β) :
    (l.head?.map f).toList = (l.take 1).map f := by
  cases l <;> rfl

/-- A relation holds the children that its slot gives. -/
theorem childrenUnder_eq (h : ctx.table.KeptApart) {r : Relation} {slot : Slot}
    (hs : ctx.table.relationSlot? t.kind r.name = some slot)
    (hserves : slot.ServesRelation r.multiplicity) :
    (t.element ctx entity).childrenUnder r = .ok ((slot.childrenOf r.name t).map TreeNode.mk) := by
  obtain ⟨hm, hshape⟩ := slotRaw_of_servesRelation hserves ctx t r.name
  have hraw := relationRaw_eq h entity hs
  rw [hshape] at hraw
  unfold Slot.childrenOf Slot.keep
  unfold Element.childrenUnder Element.childNode? Element.childNodes
  rw [hraw, Relation.isSingle, hm]
  cases slot.multiple with
  | true => rfl
  | false => exact congrArg Except.ok (head?_map_toList _ _)

/-- The values that a slot gives: the node's own text, or the children that it takes. -/
def slotValues (ctx : TreeContext) (t : SyntaxTree) (name : String) : Slot → List Value
  | .text => [valueOf ctx t]
  | slot => (slot.childrenOf name t).map (valueOf ctx)

/-- A name under which a single property shows a position of the node instead. -/
def ShowsPosition (p : Property) : Prop :=
  p.multiplicity = .single ∧ (Position.ofName? p.name).isSome

instance (p : Property) : Decidable (ShowsPosition p) := inferInstanceAs (Decidable (_ ∧ _))

/-- A property holds the values that its slot gives, unless it shows a position. -/
theorem valuesUnder_eq (h : ctx.table.KeptApart) {p : Property} {slot : Slot}
    (hs : ctx.table.propertySlot? t.kind p.name = some slot)
    (hserves : slot.ServesProperty p.multiplicity) (hp : ¬ ShowsPosition p) :
    (t.element ctx entity).valuesUnder p = .ok (slotValues ctx t p.name slot) := by
  have hraw := propertyRaw_eq h entity hs
  have hposition : p.multiplicity = .single →
      Position.property? (⟨t⟩ : TreeNode ctx) p.name = .ok none := by
    intro hsingle
    have hnone : Position.ofName? p.name = none := by
      simpa [ShowsPosition, hsingle] using hp
    simp [Position.property?, hnone]
  unfold Element.valuesUnder Element.singleProperty Element.multipleProperty
  rw [hraw, Property.isSingle]
  cases slot with
  | field multiple tokens =>
    obtain ⟨rfl, hm⟩ := hserves
    cases multiple with
    | true =>
      rw [hm]
      rfl
    | false =>
      have hsingle : p.multiplicity = .single := hm
      rw [hposition hsingle, hsingle]
      exact congrArg Except.ok (head?_map_toList _ _)
  | children kinds multiple => cases hserves
  | text =>
    have hsingle : p.multiplicity = .single := hserves
    rw [hposition hsingle, hsingle]
    rfl

/-! ## Positions -/

/-- A node without width has no text. -/
theorem sliceOf_eq_empty {l : TreeLabel} (h : l.startByte = l.endByte) : sliceOf ctx l = "" := by
  unfold sliceOf Text.slice?
  rw [h, if_neg (Nat.lt_irrefl _), Nat.sub_self]
  cases Text.splitAtByte? l.endByte.toNat ctx.chars with
  | none => rfl
  | some parts => simp [Text.splitAtByte?_zero]

/-- Every node of a tree has its positions. -/
theorem exists_position (n : TreeNode ctx) (p : Position) : ∃ w, p.get n = .ok w := by
  have hstart : Position.startOf n = .ok (tokenOf ctx n.tree.firstLeaf) := rfl
  have hstop : ∃ s, Position.stopOf n = .ok s := by
    unfold Position.stopOf
    by_cases h : n.tree.label.startByte = n.tree.label.endByte
    · have hlast : SyntaxNode.last? n = none := if_pos h
      have htext : SyntaxNode.text n = "" := sliceOf_eq_empty h
      have hfirst : SyntaxNode.first? n = some (tokenOf ctx n.tree.firstLeaf) := rfl
      rw [hlast, hfirst, htext]
      exact ⟨_, rfl⟩
    · have hlast : SyntaxNode.last? n = some (tokenOf ctx n.tree.lastLeaf) := if_neg h
      rw [hlast]
      exact ⟨_, rfl⟩
  obtain ⟨s, hs⟩ := hstop
  unfold Position.get
  cases p with
  | startLine => rw [hstart]; exact ⟨_, rfl⟩
  | startColumn => rw [hstart]; exact ⟨_, rfl⟩
  | endLine => rw [hs]; exact ⟨_, rfl⟩
  | endColumn => rw [hs]; exact ⟨_, rfl⟩

/-! ## Readable nodes -/

theorem wrap_eq {m : Metamodel} (h : m.entity? t.kind = some entity) :
    Element.wrap m (⟨t⟩ : TreeNode ctx) = .ok (t.element ctx entity) :=
  Element.wrap_eq_ok_iff.2 ⟨rfl, h⟩

theorem exists_slot_of_relation {m : Metamodel} (hagree : Agrees m ctx.table)
    (hentity : m.entity? t.kind = some entity) {r : Relation} (hr : r ∈ entity.relations) :
    ∃ slot, ctx.table.relationSlot? t.kind r.name = some slot ∧
      slot.ServesRelation r.multiplicity := by
  have hslot := hagree.relation entity (Metamodel.mem_of_entity? hentity) r hr
  rwa [Metamodel.name_of_entity? hentity] at hslot

theorem exists_slot_of_property {m : Metamodel} (hagree : Agrees m ctx.table)
    (hentity : m.entity? t.kind = some entity) {p : Property} (hp : p ∈ entity.properties) :
    ∃ slot, ctx.table.propertySlot? t.kind p.name = some slot ∧
      slot.ServesProperty p.multiplicity := by
  have hslot := hagree.property entity (Metamodel.mem_of_entity? hentity) p hp
  rwa [Metamodel.name_of_entity? hentity] at hslot

/-- Where a metamodel and a table agree, every node with an entity can be read. -/
theorem readable_of_agrees {m : Metamodel} (hagree : Agrees m ctx.table)
    (hapart : ctx.table.KeptApart) (n : TreeNode ctx) (c : Element (TreeNode ctx))
    (hc : Element.wrap m n = .ok c) : c.Readable := by
  obtain ⟨rfl, hentity⟩ := Element.wrap_eq_ok_iff.1 hc
  obtain ⟨⟨t⟩, entity⟩ := c
  refine ⟨exists_position _, ?_, ?_⟩
  · intro p hp
    obtain ⟨slot, hs, hserves⟩ := exists_slot_of_property hagree hentity hp
    by_cases hshows : ShowsPosition p
    · obtain ⟨hsingle, hsome⟩ := hshows
      obtain ⟨q, hq⟩ := Option.isSome_iff_exists.1 hsome
      obtain ⟨w, hw⟩ := exists_position (⟨t⟩ : TreeNode ctx) q
      have hproperty : Position.property? (⟨t⟩ : TreeNode ctx) p.name =
          .ok (some (.int (Position.signed w))) := by
        simp only [Position.property?, hq, hw]
        rfl
      unfold Element.valuesUnder Element.singleProperty
      rw [Property.isSingle, hsingle, hproperty]
      exact ⟨_, rfl⟩
    · exact ⟨_, valuesUnder_eq hapart hs hserves hshows⟩
  · intro r hr
    obtain ⟨slot, hs, hserves⟩ := exists_slot_of_relation hagree hentity hr
    exact ⟨_, childrenUnder_eq hapart hs hserves⟩

theorem mem_children_of_holds {m : Metamodel} (hagree : Agrees m ctx.table)
    (hapart : ctx.table.KeptApart) {n : TreeNode ctx} {c : Element (TreeNode ctx)}
    (hc : Element.wrap m n = .ok c) {r : Relation} (hr : r ∈ c.entity.relations)
    {n' : TreeNode ctx} (h : c.Holds r n') : n'.tree ∈ n.tree.children := by
  obtain ⟨rfl, hentity⟩ := Element.wrap_eq_ok_iff.1 hc
  obtain ⟨⟨t⟩, entity⟩ := c
  obtain ⟨slot, hs, hserves⟩ := exists_slot_of_relation hagree hentity hr
  obtain ⟨ns, hns, hn'⟩ := h
  rw [childrenUnder_eq hapart hs hserves] at hns
  obtain rfl := Except.ok.inj hns
  obtain ⟨u, hu, rfl⟩ := List.mem_map.1 hn'
  exact (slot.childrenOf_sublist r.name t).subset hu

/-- What a node reaches is inside its tree. -/
theorem mem_nodes_of_reaches {m : Metamodel} (hagree : Agrees m ctx.table)
    (hapart : ctx.table.KeptApart) {n n' : TreeNode ctx} {c : Element (TreeNode ctx)}
    (hc : Element.wrap m n = .ok c) (h : c.Reaches m n') : n'.tree ∈ n.tree.nodes := by
  induction h generalizing n with
  | child hr hn =>
    exact SyntaxTree.mem_nodes_of_mem_children (mem_children_of_holds hagree hapart hc hr hn)
      (SyntaxTree.self_mem_nodes _)
  | further hr hn hw _ ih =>
    exact SyntaxTree.mem_nodes_of_mem_children (mem_children_of_holds hagree hapart hc hr hn)
      (ih hw)

end TreeNode

namespace Grammar

/-- A text whose nodes answer to the names of the grammar of some node types. -/
def contextIn (types : List NodeType) (chars : List Char) : TreeContext :=
  ⟨chars, Text.byteSize chars, (derive types).2⟩

theorem readable_of_distinctKinds {types : List NodeType} (h : DistinctKinds types)
    (chars : List Char) (n : TreeNode (contextIn types chars))
    (c : Element (TreeNode (contextIn types chars)))
    (hc : Element.wrap (derive types).1 n = .ok c) : c.Readable :=
  TreeNode.readable_of_agrees (agrees_of_straysFit (straysFit_of_distinctKinds h))
    (keptApart_derive types) n c hc

end Grammar

end SourceOutline
