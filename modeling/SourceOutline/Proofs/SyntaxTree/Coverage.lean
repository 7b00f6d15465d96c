import SourceOutline.Proofs.Outline.Count
import SourceOutline.Proofs.SyntaxTree.Faults
import SourceOutline.Proofs.SyntaxTree.Places

/-
  Outlines show every named node of a tree that conforms to its grammar exactly once.

  In any tree, no child of a node is reported twice (`exists_reportsOnce`). In a tree that conforms
  (`Conforms`), every named child fits a field or a claim, so that some relation shows it, and no
  relation has more children than it can hold: the relations together show the named children of a
  node, each once (`nodesOf_perm`). By induction over the depth an outline then counts the named
  nodes of the tree.
-/

namespace SourceOutline.Grammar

/-! ## Trees that conform to a grammar -/

/-- The named children of a node fit its node type: a label is that of a field, and a named type of
    the field stands for the kind of the child; without a label it is a named type among the
    children. One child has the place to itself unless there may be several. -/
structure ChildrenFit (s : Supertypes) (t : NodeType) (children : List SyntaxTree) : Prop where
  labelled : ∀ c ∈ children, c.label.named = true → ∀ f ∈ c.label.field,
    ∃ x ∈ t.fields.toList, x.1 = f ∧ ∃ k ∈ namedKinds x.2.types, c.kind ∈ s.expand k
  unlabelled : ∀ c ∈ children, c.label.named = true → c.label.field = none →
    ∃ spec ∈ t.children, ∃ k ∈ namedKinds spec.types, c.kind ∈ s.expand k
  fieldOnce : ∀ x ∈ t.fields.toList, x.2.multiple = false →
    children.countP (fun c => c.label.named && c.label.field = some x.1) ≤ 1
  childOnce : ∀ spec ∈ t.children, spec.multiple = false →
    children.countP (fun c => c.label.named && c.label.field.isNone) ≤ 1

instance (s : Supertypes) (t : NodeType) (children : List SyntaxTree) :
    Decidable (ChildrenFit s t children) :=
  decidable_of_iff (_ ∧ _ ∧ _ ∧ _)
    ⟨fun ⟨a, b, c, d⟩ => ⟨a, b, c, d⟩, fun ⟨a, b, c, d⟩ => ⟨a, b, c, d⟩⟩

/-- A tree of a grammar: every named node has a node type that is no supertype and fits its
    children, and the anonymous nodes are leaves. -/
structure Conforms (types : List NodeType) (root : SyntaxTree) : Prop where
  named : root.label.named = true
  fits : ∀ n ∈ root.nodes, n.label.named = true → ∃ t ∈ describedOf types, t.kind = n.kind ∧
    ChildrenFit (Supertypes.ofTypes types) t n.children
  tokens : ∀ n ∈ root.nodes, n.label.named = false → n.children.isEmpty = true

instance (types : List NodeType) (root : SyntaxTree) : Decidable (Conforms types root) :=
  decidable_of_iff (_ ∧ _ ∧ _) ⟨fun ⟨a, b, c⟩ => ⟨a, b, c⟩, fun ⟨a, b, c⟩ => ⟨a, b, c⟩⟩

theorem Conforms.child {types : List NodeType} {n c : SyntaxTree} (h : Conforms types n)
    (hc : c ∈ n.children) (hnamed : c.label.named = true) : Conforms types c where
  named := hnamed
  fits := fun _ hn => h.fits _ (SyntaxTree.mem_nodes_of_mem_children hc hn)
  tokens := fun _ hn => h.tokens _ (SyntaxTree.mem_nodes_of_mem_children hc hn)

/-! ## The relations of a node show its named children -/

theorem filter_append_filter_perm {β : Type} {p q : β → Bool} {l : List β}
    (h : ∀ b ∈ l, p b = true → q b = false) :
    (l.filter p ++ l.filter q).Perm (l.filter fun b => p b || q b) := by
  have hp : (l.filter fun b => p b || q b).filter p = l.filter p := by
    rw [List.filter_filter]
    refine List.filter_congr fun b _ => ?_
    cases p b <;> simp
  have hq : (l.filter fun b => p b || q b).filter (fun b => !p b) = l.filter q := by
    rw [List.filter_filter]
    refine List.filter_congr fun b hb => ?_
    cases hpb : p b with
    | true => simp [h b hb hpb]
    | false => simp
  rw [← hp, ← hq]
  exact List.filter_append_perm _ _

/-- Pickers of which no two pick the same give together what any of them picks. -/
theorem flatMap_filter_perm {α β : Type} {picks : α → β → Bool} {pickers : List α} {l : List β}
    (h : pickers.Pairwise fun a a' => ∀ b ∈ l, picks a b = true → picks a' b = false) :
    (pickers.flatMap fun a => l.filter (picks a)).Perm
      (l.filter fun b => pickers.any fun a => picks a b) := by
  induction pickers with
  | nil => simp
  | cons a pickers ih =>
    obtain ⟨ha, hrest⟩ := List.pairwise_cons.1 h
    rw [List.flatMap_cons]
    refine ((ih hrest).append_left _).trans ?_
    refine filter_append_filter_perm fun b hb hab => ?_
    rw [List.any_eq_false]
    intro a' ha'
    simp [ha a' ha' b hb hab]

variable {types before : List NodeType} {t : NodeType}

/-- Whether a relation of the node type shows a child. -/
def shows (types : List NodeType) (t : NodeType) (r : Relation) (c : SyntaxTree) : Bool :=
  ((derive types).2.relationSlot? t.kind r.name).any fun slot => slot.takes r.name c

theorem shows_unique (hd : DistinctKinds types) (hlast : LastOfKind types before t)
    {r r' : Relation} (hr : r ∈ (entityOf (Supertypes.ofTypes types) t).relations)
    (hr' : r' ∈ (entityOf (Supertypes.ofTypes types) t).relations) {c : SyntaxTree}
    (h : shows types t r c = true) (h' : shows types t r' c = true) : r = r' := by
  obtain ⟨a, ha, hac⟩ := (Option.any_eq_true _ _).1 h
  obtain ⟨b, hb, hbc⟩ := (Option.any_eq_true _ _).1 h'
  have hf : (entityOf (Supertypes.ofTypes types) t).Declares (.relation r) := hr
  have hf' : (entityOf (Supertypes.ofTypes types) t).Declares (.relation r') := hr'
  exact Feature.relation.inj (feature_unique hd hlast hf hf' ha hb hac hbc)

/-- Relations show no tokens. -/
theorem named_of_shows (hd : DistinctKinds types) (hlast : LastOfKind types before t)
    {r : Relation} (hr : r ∈ (entityOf (Supertypes.ofTypes types) t).relations) {c : SyntaxTree}
    (h : shows types t r c = true) : c.label.named = true := by
  obtain ⟨slot, hslot, hserves⟩ :=
    relationSlot?_of_straysFit (straysFit_of_distinctKinds hd) hlast hr
  rw [shows, hslot, Option.any_some] at h
  cases slot with
  | field multiple tokens =>
    obtain ⟨rfl, -⟩ := hserves
    simp only [Slot.takes, Bool.false_or, Bool.and_eq_true] at h
    exact h.2
  | children kinds multiple =>
    simp only [Slot.takes, Bool.and_eq_true] at h
    exact h.1.1
  | text => cases hserves

theorem holdsTokens_eq_false {spec : ChildSpec} {k : String} (h : k ∈ namedKinds spec.types) :
    holdsTokens spec = false := by
  unfold namedKinds at h
  obtain ⟨ref, href, -⟩ := List.mem_map.1 h
  obtain ⟨hmem, hnamed⟩ := List.mem_filter.1 href
  unfold holdsTokens
  rw [List.all_eq_false]
  exact ⟨ref, hmem, by simp [hnamed]⟩

/-- Some relation shows a named child that fits. -/
theorem exists_shows (hd : DistinctKinds types) (hlast : LastOfKind types before t)
    {children : List SyntaxTree} (hfit : ChildrenFit (Supertypes.ofTypes types) t children)
    {c : SyntaxTree} (hc : c ∈ children) (hnamed : c.label.named = true) :
    ∃ r ∈ (entityOf (Supertypes.ofTypes types) t).relations, shows types t r c = true := by
  cases hlabel : c.label.field with
  | some f =>
    obtain ⟨x, hx, rfl, k, hk, -⟩ := hfit.labelled c hc hnamed f hlabel
    have htokens := holdsTokens_eq_false hk
    refine ⟨_, mem_relations_entityOf.2 (.inl ⟨x, hx, htokens, rfl⟩), ?_⟩
    rw [shows, relationSlot?_field hlast hx]
    simp [fieldSlot, Slot.takes, hlabel, hnamed]
  | none =>
    obtain ⟨k, hk, hkind⟩ :=
      exists_mem_childClaims_iff.2 (hfit.unlabelled c hc hnamed hlabel)
    refine ⟨_, mem_relations_entityOf.2 (.inr ⟨k, hk, rfl⟩), ?_⟩
    rw [shows, relationSlot?_claim hlast hk, latest_before_eq_none hd hlast]
    simp [Slot.takes, hlabel, hnamed, hkind]

theorem childrenOf_eq_filter {slot : Slot} {name : String} {n : SyntaxTree}
    (h : slot.multiple = false → n.children.countP (slot.takes name) ≤ 1) :
    slot.childrenOf name n = n.children.filter (slot.takes name) := by
  unfold Slot.childrenOf Slot.keep
  cases hm : slot.multiple with
  | true => rfl
  | false =>
    refine List.take_of_length_le ?_
    rw [← List.countP_eq_length_filter]
    exact h hm

/-- A slot that holds one child takes one at most, if the children fit. -/
theorem countP_takes_le_one (hd : DistinctKinds types) (hlast : LastOfKind types before t)
    {children : List SyntaxTree} (hfit : ChildrenFit (Supertypes.ofTypes types) t children)
    {r : Relation} (hr : r ∈ (entityOf (Supertypes.ofTypes types) t).relations) {slot : Slot}
    (hslot : (derive types).2.relationSlot? t.kind r.name = some slot)
    (hm : slot.multiple = false) : children.countP (slot.takes r.name) ≤ 1 := by
  rcases mem_relations_entityOf.1 hr with ⟨x, hx, htokens, rfl⟩ | ⟨k, hk, rfl⟩
  · rw [relationSlot?_field hlast hx] at hslot
    obtain rfl := Option.some.inj hslot
    refine Nat.le_trans (List.countP_mono_left ?_) (hfit.fieldOnce x hx hm)
    intro c _ htakes
    simp only [fieldSlot, Slot.takes, htokens, Bool.false_or, Bool.and_eq_true] at htakes
    simp [htakes.1, htakes.2]
  · rw [relationSlot?_claim hlast hk, latest_before_eq_none hd hlast, Option.none_or] at hslot
    obtain rfl := Option.some.inj hslot
    cases hspec : t.children with
    | none =>
      rw [childClaims_eq_nil hspec] at hk
      simp at hk
    | some spec =>
      have hmultiple : spec.multiple = false := by
        simpa [Slot.multiple, childrenMultiple, hspec] using hm
      refine Nat.le_trans (List.countP_mono_left ?_) (hfit.childOnce spec hspec hmultiple)
      intro c _ htakes
      exact (Bool.and_eq_true_iff.1 htakes).1

/-- A relation of a node whose children fit leaves out none that it can show. -/
theorem nodesOf_eq (hd : DistinctKinds types) (hlast : LastOfKind types before t)
    {n : SyntaxTree} (hkind : t.kind = n.kind)
    (hfit : ChildrenFit (Supertypes.ofTypes types) t n.children) (chars : List Char)
    {r : Relation} (hr : r ∈ (entityOf (Supertypes.ofTypes types) t).relations) :
    (n.element (contextIn types chars) (entityOf (Supertypes.ofTypes types) t)).nodesOf r =
      (n.children.filter (shows types t r)).map TreeNode.mk := by
  obtain ⟨slot, hslot, hserves⟩ :=
    relationSlot?_of_straysFit (straysFit_of_distinctKinds hd) hlast hr
  have hshows : shows types t r = slot.takes r.name := by
    funext c
    rw [shows, hslot, Option.any_some]
  have honce := countP_takes_le_one hd hlast hfit hr hslot
  rw [hkind] at hslot
  rw [hshows, ← childrenOf_eq_filter honce, Element.nodesOf,
    TreeNode.childrenUnder_eq (keptApart_derive types) hslot hserves]
  rfl

/-- The relations of a node whose children fit show the named children, each once. -/
theorem nodesOf_perm (hd : DistinctKinds types) (hlast : LastOfKind types before t)
    {n : SyntaxTree} (hkind : t.kind = n.kind)
    (hfit : ChildrenFit (Supertypes.ofTypes types) t n.children) (chars : List Char) :
    ((entityOf (Supertypes.ofTypes types) t).relations.flatMap
      (n.element (contextIn types chars) (entityOf (Supertypes.ofTypes types) t)).nodesOf).Perm
      ((n.children.filter fun c => c.label.named).map TreeNode.mk) := by
  have hnodes : (entityOf (Supertypes.ofTypes types) t).relations.flatMap
      (n.element (contextIn types chars) (entityOf (Supertypes.ofTypes types) t)).nodesOf =
      ((entityOf (Supertypes.ofTypes types) t).relations.flatMap fun r =>
        n.children.filter (shows types t r)).map TreeNode.mk := by
    rw [List.map_flatMap]
    exact List.flatMap_congr fun r hr => nodesOf_eq hd hlast hkind hfit chars hr
  have hnamed : n.children.filter (fun c => c.label.named) = n.children.filter fun c =>
      (entityOf (Supertypes.ofTypes types) t).relations.any fun r => shows types t r c := by
    refine List.filter_congr fun c hc => Bool.eq_iff_iff.2 ?_
    rw [List.any_eq_true]
    constructor
    · exact exists_shows hd hlast hfit hc
    · rintro ⟨r, hr, hshows⟩
      exact named_of_shows hd hlast hr hshows
  rw [hnodes, hnamed]
  refine (flatMap_filter_perm ?_).map _
  refine (relations_nodup (Supertypes.ofTypes types) t).imp_of_mem ?_
  intro r r' hr hr' hne c _ hshows
  rw [Bool.eq_false_iff]
  exact fun hshows' => hne (shows_unique hd hlast hr hr' hshows hshows')

/-! ## Counting nodes -/

/-- The number of named nodes in a tree. -/
def namedCount (n : SyntaxTree) : Nat := n.nodes.countP fun u => u.label.named

theorem countP_nodesOf (p : SyntaxTree → Bool) (children : List SyntaxTree) :
    (SyntaxTree.nodesOf children).countP p = (children.map fun c => c.nodes.countP p).sum := by
  induction children with
  | nil => rfl
  | cons c children ih => rw [SyntaxTree.nodesOf, List.countP_append, ih, List.map_cons,
      List.sum_cons]

theorem sum_map_filter_of_eq_zero {α : Type} {p : α → Bool} {f : α → Nat} {l : List α}
    (h : ∀ a ∈ l, p a = false → f a = 0) : ((l.filter p).map f).sum = (l.map f).sum := by
  induction l with
  | nil => rfl
  | cons a l ih =>
    have hrest := ih fun b hb => h b (List.mem_cons_of_mem _ hb)
    cases hp : p a with
    | true => rw [List.filter_cons_of_pos hp, List.map_cons, List.sum_cons, List.map_cons,
        List.sum_cons, hrest]
    | false => rw [List.filter_cons_of_neg (by simp [hp]), List.map_cons, List.sum_cons,
        h a (by simp) hp, Nat.zero_add, hrest]

theorem Conforms.namedCount_eq {n : SyntaxTree} (h : Conforms types n) :
    namedCount n = 1 + ((n.children.filter fun c => c.label.named).map namedCount).sum := by
  have hzero : ∀ c ∈ n.children, c.label.named = false → namedCount c = 0 := by
    intro c hc hanonymous
    have hleaf : c.children = [] := List.isEmpty_iff.1
      (h.tokens c (SyntaxTree.mem_nodes_of_mem_children hc c.self_mem_nodes) hanonymous)
    rw [namedCount, SyntaxTree.nodes_eq, hleaf, SyntaxTree.nodesOf]
    simp [hanonymous]
  rw [sum_map_filter_of_eq_zero hzero, namedCount, SyntaxTree.nodes_eq, List.countP_cons,
    countP_nodesOf, if_pos h.named, Nat.add_comm]
  rfl

/-! ## Outlines of trees that conform -/

/-- One level of an outline, if the outlines of the named children count their named nodes. -/
theorem Conforms.exists_outlineWith (hd : DistinctKinds types) (chars : List Char)
    {n : SyntaxTree} (h : Conforms types n)
    {descend : Element (TreeNode (contextIn types chars)) → Except Fault OutlineContent}
    (hdescend : ∀ c ∈ n.children, c.label.named = true → ∃ e content,
      Element.wrap (derive types).1 ⟨c⟩ = .ok e ∧ descend e = .ok content ∧
        content.count = namedCount c) :
    ∃ e o, Element.wrap (derive types).1 ⟨n⟩ = .ok e ∧
      e.outlineWith (derive types).1 descend = .ok o ∧ o.count = namedCount n := by
  obtain ⟨t, ht, hkind, hfit⟩ := h.fits n n.self_mem_nodes h.named
  obtain ⟨before, hlast⟩ := lastOfKind_of_mem hd ht
  have hentity : (derive types).1.entity? n.kind =
      some (entityOf (Supertypes.ofTypes types) t) := by
    rw [← hkind]
    exact hlast.entity?
  have hwrap : Element.wrap (derive types).1 (⟨n⟩ : TreeNode (contextIn types chars)) =
      .ok (n.element _ (entityOf (Supertypes.ofTypes types) t)) := TreeNode.wrap_eq hentity
  have hread := readable_of_distinctKinds hd chars _ _ hwrap
  have hperm := nodesOf_perm hd hlast hkind hfit chars
  have hchildren : ∀ r ∈ (entityOf (Supertypes.ofTypes types) t).relations,
      ∀ c ∈ (n.element (contextIn types chars) (entityOf (Supertypes.ofTypes types) t)).nodesOf r,
      ∃ e content, Element.wrap (derive types).1 c = .ok e ∧ descend e = .ok content ∧
        content.count = namedCount c.tree := by
    intro r hr c hc
    obtain ⟨u, hu, rfl⟩ := List.mem_map.1 (hperm.mem_iff.1 (List.mem_flatMap.2 ⟨r, hr, hc⟩))
    obtain ⟨hchild, hnamed⟩ := List.mem_filter.1 hu
    exact hdescend u hchild hnamed
  obtain ⟨o, ho, hcount⟩ := hread.exists_outlineWith hchildren
  refine ⟨_, o, hwrap, ho, ?_⟩
  rw [hcount, (hperm.map _).sum_eq, List.map_map, h.namedCount_eq]
  rfl

theorem Conforms.exists_outlineAt (hd : DistinctKinds types) (chars : List Char)
    {n : SyntaxTree} (h : Conforms types n) (depth : Nat) :
    ∃ e o, Element.wrap (derive types).1 (⟨n⟩ : TreeNode (contextIn types chars)) = .ok e ∧
      (e.outlineAt (derive types).1 none depth).run = some (.ok o) ∧ o.count = namedCount n := by
  have hdescend : ∀ c ∈ n.children, c.label.named = true → ∃ e content,
      Element.wrap (derive types).1 (⟨c⟩ : TreeNode (contextIn types chars)) = .ok e ∧
        settle (e.contentAt (derive types).1 none depth) = .ok content ∧
          content.count = namedCount c := by
    intro c hc hnamed
    have hlt := SyntaxTree.height_lt_of_mem_children hc
    obtain ⟨e, o, hwrap, ho, hcount⟩ := (h.child hc hnamed).exists_outlineAt hd chars (depth + 1)
    have hcontent := (Element.run_contentAt_eq_ok_iff (by simp)).2 ⟨o, rfl, ho⟩
    exact ⟨e, .element o, hwrap, gives_settle _ _ hcontent, hcount⟩
  obtain ⟨e, o, hwrap, ho, hcount⟩ := h.exists_outlineWith hd chars hdescend
  obtain ⟨r, hr⟩ := Option.isSome_iff_exists.1
    (Element.isSome_outlineAt (fun _ => TreeNode.finiteDescent _ e) depth)
  refine ⟨e, o, hwrap, ?_, hcount⟩
  rw [hr, ← Element.outlineWith_of_outlineAt hr, ho]
termination_by n.height

/-- Every child is reached exactly once. No child of a node is reported by two references; and the
    outline of a tree that conforms to its grammar shows each of its named nodes. -/
theorem reached_once {types : List NodeType} (hd : DistinctKinds types) (chars : List Char) :
    (∀ (n : SyntaxTree) entity, (derive types).1.entity? n.kind = some entity →
      ∃ refs, TreeNode.ReportsOnce (n.element (contextIn types chars) entity) refs) ∧
    ∀ root, Conforms types root → ∃ e o,
      Element.wrap (derive types).1 (⟨root⟩ : TreeNode (contextIn types chars)) = .ok e ∧
        e.outline (derive types).1 none = some (.ok o) ∧ o.count = namedCount root :=
  ⟨exists_reportsOnce hd chars, fun _ hroot => hroot.exists_outlineAt hd chars 0⟩

/-- A sum in a block, and a comment after it. -/
def sumBlock : SyntaxTree :=
  .node ⟨"block", true, none, 0, 10, 0, 0⟩
    [.node ⟨"sum", true, none, 0, 5, 0, 0⟩
      [.node ⟨"name", true, some "left", 0, 1, 0, 0⟩ [],
        .node ⟨"+", false, some "operator", 2, 3, 0, 2⟩ [],
        .node ⟨"name", true, some "right", 4, 5, 0, 4⟩ []],
      .node ⟨"comment", true, none, 6, 10, 0, 6⟩ []]

theorem reached_once_sumBlock :
    DistinctKinds sumTypes ∧ Conforms sumTypes sumBlock ∧ ∃ e o,
      Element.wrap (derive sumTypes).1
        (⟨sumBlock⟩ : TreeNode (contextIn sumTypes "a + b // c".toList)) = .ok e ∧
      (∃ refs, TreeNode.ReportsOnce e refs) ∧
      e.outline (derive sumTypes).1 none = some (.ok o) ∧ o.count = 5 := by
  have hdistinct : DistinctKinds sumTypes := by decide
  have hconforms : Conforms sumTypes sumBlock := by decide_cbv
  obtain ⟨honce, houtline⟩ := reached_once hdistinct "a + b // c".toList
  obtain ⟨⟨node, entity⟩, o, hwrap, ho, hcount⟩ := houtline sumBlock hconforms
  obtain ⟨rfl, hentity⟩ := Element.wrap_eq_ok_iff.1 hwrap
  exact ⟨hdistinct, hconforms, _, o, hwrap, honce sumBlock entity hentity, ho, hcount⟩

end SourceOutline.Grammar
