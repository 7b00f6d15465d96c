import SourceOutline.Outline.Level
import SourceOutline.SyntaxTree.Node

/-
  How far an outline goes down: from an element to the children that its references lead to
  (`Child`), and on from there. It comes to an end under every depth limit, and without one where no
  descent from child to child goes on for ever (`FiniteDescent`). In a tree none does, so a node of
  a tree always has an outline or a fault (`TreeNode.outline`).
-/

namespace SourceOutline

/-- `c` stands under some name of `n`. -/
def SyntaxNode.Under {ν : Type} [SyntaxNode ν] (n c : ν) : Prop :=
  ∃ name raw, (field? n name).or (accessor? n name) = some raw ∧ c ∈ raw.children

namespace Element

variable {ν : Type} [SyntaxNode ν] {m : Metamodel} {e c : Element ν}

/-! ## Children -/

/-- One of the references of `e` leads to the child `c`. -/
def Child (m : Metamodel) (e c : Element ν) : Prop :=
  ∃ refs, e.valuesOrder = .ok refs ∧ ∃ ref ∈ refs, e.valueAt m ref = .ok (some (.element c))

theorem wrap_eq_ok_iff {n : ν} :
    wrap m n = .ok c ↔ c.node = n ∧ m.entity? (SyntaxNode.rule n) = some c.entity := by
  obtain ⟨node, entity⟩ := c
  unfold wrap
  cases m.entity? (SyntaxNode.rule n) with
  | none => simp
  | some entity' => simp [eq_comm]

theorem relationRaw_eq_ok {name : String} {raw : Raw ν} (h : e.relationRaw name = .ok raw) :
    (SyntaxNode.field? e.node name).or (SyntaxNode.accessor? e.node name) = some raw := by
  unfold relationRaw at h
  split at h
  · next r hr => rw [hr, Except.ok.inj h]
  · cases h

theorem under_of_childNode? {r : Relation} {n : ν} (h : e.childNode? r = .ok (some n)) :
    SyntaxNode.Under e.node n := by
  obtain ⟨-, -, h⟩ := exists_of_bind_eq_ok h
  obtain ⟨raw, hraw, h⟩ := exists_of_bind_eq_ok h
  refine ⟨r.name, raw, relationRaw_eq_ok hraw, ?_⟩
  cases raw with
  | node n' =>
    obtain rfl := Except.ok.inj h
    exact List.mem_singleton_self n
  | value v => cases h
  | values vs => cases h
  | nodes ns => cases h

theorem under_of_childNodes {r : Relation} {ns : List ν} (h : e.childNodes r = .ok ns) {n : ν}
    (hn : n ∈ ns) : SyntaxNode.Under e.node n := by
  obtain ⟨-, -, h⟩ := exists_of_bind_eq_ok h
  obtain ⟨raw, hraw, h⟩ := exists_of_bind_eq_ok h
  refine ⟨r.name, raw, relationRaw_eq_ok hraw, ?_⟩
  cases raw with
  | nodes ns' =>
    obtain rfl := Except.ok.inj h
    exact hn
  | value v => cases h
  | values vs => cases h
  | node n => cases h

/-- What is found under a single relation is a node under a name, wrapped. -/
theorem exists_of_singleRelationBy {α : Type} {wrap : ν → Except Fault α} {r : Relation}
    {found : Option α} (h : e.singleRelationBy wrap r = .ok found) :
    ∀ a ∈ found.toList, ∃ n, SyntaxNode.Under e.node n ∧ wrap n = .ok a := by
  obtain ⟨n, hn, h⟩ := exists_of_bind_eq_ok h
  cases n with
  | none =>
    cases h
    simp
  | some n =>
    obtain ⟨a, ha, h⟩ := exists_of_bind_eq_ok h
    cases h
    simpa using ⟨n, under_of_childNode? hn, ha⟩

theorem exists_of_multipleRelationBy {α : Type} {wrap : ν → Except Fault α} {r : Relation}
    {found : List α} (h : e.multipleRelationBy wrap r = .ok found) :
    ∀ a ∈ found, ∃ n, SyntaxNode.Under e.node n ∧ wrap n = .ok a := by
  obtain ⟨ns, hns, h⟩ := exists_of_bind_eq_ok h
  intro a ha
  obtain ⟨n, hn, hw⟩ := mem_of_mapM_eq_ok h ha
  exact ⟨n, under_of_childNodes hns hn, hw⟩

/-- What a reference leads to as a child is a node under a name, wrapped. -/
theorem exists_of_valueAtBy {α : Type} {wrap : ν → Except Fault α} {ref : Reference} {a : α}
    (h : e.valueAtBy wrap ref = .ok (some (.element a))) :
    ∃ n, SyntaxNode.Under e.node n ∧ wrap n = .ok a := by
  obtain ⟨p | r, i⟩ := ref
  · unfold valueAtBy at h
    dsimp only at h
    split at h
    · obtain ⟨v, -, h⟩ := exists_of_bind_eq_ok h
      cases v <;> cases i <;> cases h
    · obtain ⟨vs, -, h⟩ := exists_of_bind_eq_ok h
      obtain ⟨v, -, h⟩ := Option.map_eq_some_iff.1 (Except.ok.inj h)
      cases h
  · unfold valueAtBy at h
    dsimp only at h
    split at h
    · obtain ⟨found, hfound, h⟩ := exists_of_bind_eq_ok h
      cases found <;> cases i <;> cases h
      exact exists_of_singleRelationBy hfound a (by simp)
    · obtain ⟨found, hfound, h⟩ := exists_of_bind_eq_ok h
      obtain ⟨a', ha, heq⟩ := Option.map_eq_some_iff.1 (Except.ok.inj h)
      cases heq
      exact exists_of_multipleRelationBy hfound a (List.mem_of_getElem? ha)

theorem under_of_valueAt {ref : Reference} (h : e.valueAt m ref = .ok (some (.element c))) :
    SyntaxNode.Under e.node c.node ∧ wrap m c.node = .ok c := by
  obtain ⟨n, hn, hw⟩ := exists_of_valueAtBy h
  obtain ⟨rfl, -⟩ := wrap_eq_ok_iff.1 hw
  exact ⟨hn, hw⟩

theorem Child.under (h : Child m e c) : SyntaxNode.Under e.node c.node := by
  obtain ⟨refs, -, ref, -, hc⟩ := h
  exact (under_of_valueAt hc).1

theorem Child.wrap_eq (h : Child m e c) : wrap m c.node = .ok c := by
  obtain ⟨refs, -, ref, -, hc⟩ := h
  exact (under_of_valueAt hc).2

/-! ## The end of a descent -/

/-- No descent from child to child goes on for ever. -/
def FiniteDescent (m : Metamodel) (e : Element ν) : Prop := Acc (fun c e => Child m e c) e

/-- What holds of an element at every depth is shown level by level: from the children above the
    limit to the element. -/
theorem descent_induction {motive : Nat → Element ν → Prop} {limit : Option Nat}
    (level : ∀ depth e, (∀ c, Child m e c → ¬ limit.any (· ≤ depth) → motive (depth + 1) c) →
      motive depth e)
    (h : limit = none → FiniteDescent m e) (depth : Nat) : motive depth e := by
  cases limit with
  | some limit =>
    clear h
    -- the distance to the limit gets shorter
    induction hleft : limit - depth generalizing depth e with
    | zero =>
      refine level depth e fun c _ habove => absurd ?_ habove
      simpa using Nat.le_of_sub_eq_zero hleft
    | succ left ih => exact level depth e fun c _ _ => ih (depth + 1) (by omega)
  | none =>
    have hacc := h rfl
    clear h
    induction hacc generalizing depth with
    | intro e _ ih => exact level depth e fun c hc _ => ih c hc (depth + 1)

theorem isSome_run_bind {α β : Type} {x : ExceptT Fault Option α}
    {f : α → ExceptT Fault Option β} (hx : x.run.isSome)
    (hf : ∀ a, x.run = some (.ok a) → (f a).run.isSome) : (x >>= f).run.isSome := by
  obtain ⟨r, hr⟩ := Option.isSome_iff_exists.1 hx
  rw [ExceptT.run_bind, hr]
  cases r with
  | error fault => rfl
  | ok a => exact hf a hr

theorem isSome_run_mapM {α β : Type} {f : α → ExceptT Fault Option β} {l : List α}
    (h : ∀ a ∈ l, (f a).run.isSome) : (l.mapM f).run.isSome := by
  induction l with
  | nil => rfl
  | cons a l ih =>
    rw [List.mapM_cons]
    refine isSome_run_bind (h a (by simp)) fun b _ => ?_
    exact isSome_run_bind (ih fun c hc => h c (List.mem_cons_of_mem _ hc)) fun bs _ => rfl

/-- A level comes to an end if every child on it does. -/
theorem isSome_outlineBy {descend : Element ν → ExceptT Fault Option OutlineContent}
    (h : ∀ c, Child m e c → (descend c).run.isSome) : (e.outlineBy m descend).run.isSome := by
  refine isSome_run_bind rfl fun span _ => isSome_run_bind rfl fun refs hrefs => ?_
  refine isSome_run_bind (isSome_run_mapM fun ref href => ?_) fun values _ => rfl
  refine isSome_run_bind rfl fun r hr => ?_
  match r, hr with
  | none, _ => rfl
  | some (.value v), _ => rfl
  | some (.element c), hr =>
    exact isSome_run_bind (h c ⟨refs, Option.some.inj hrefs, ref, href, Option.some.inj hr⟩)
      fun content _ => rfl

theorem isSome_outlineAt {limit : Option Nat} (h : limit = none → FiniteDescent m e)
    (depth : Nat) : (e.outlineAt m limit depth).run.isSome := by
  refine descent_induction (motive := fun depth e => (e.outlineAt m limit depth).run.isSome)
    (fun depth e ih => ?_) h depth
  rw [outlineAt_eq]
  refine isSome_outlineBy fun c hc => ?_
  unfold contentAt
  split
  · rfl
  · next habove =>
    rw [map_eq_pure_bind]
    exact isSome_run_bind (ih c hc habove) fun o _ => rfl

end Element

/-! ## Trees -/

namespace TreeNode

variable {ctx : TreeContext}

theorem mem_of_mem_children_shapeOf {ts : List SyntaxTree} {multiple tokens : Bool}
    {n : TreeNode ctx} (h : n ∈ (shapeOf ctx ts multiple tokens).children) : n.tree ∈ ts := by
  cases multiple <;> cases tokens <;> simp only [shapeOf, Raw.children] at h
  · obtain ⟨t, ht, rfl⟩ := Option.map_eq_some_iff.1 (Option.mem_toList.1 h)
    exact List.mem_of_head? ht
  · simp at h
  · obtain ⟨t, ht, rfl⟩ := List.mem_map.1 h
    exact ht
  · simp at h

/-- What stands under a name of a node is a child of it in the tree. -/
theorem mem_children_of_under {n c : TreeNode ctx} (h : SyntaxNode.Under n c) :
    c.tree ∈ n.tree.children := by
  obtain ⟨name, raw, hraw, hc⟩ := h
  rcases Option.or_eq_some_iff.1 hraw with hfield | ⟨-, haccessor⟩
  · have hfield : fieldOf? ctx n.tree name = some raw := hfield
    unfold fieldOf? at hfield
    split at hfield
    · obtain rfl := Option.some.inj hfield
      exact (List.mem_filter.1 (mem_of_mem_children_shapeOf hc)).1
    · cases hfield
  · have haccessor : accessorOf? ctx n.tree name = some raw := haccessor
    unfold accessorOf? at haccessor
    split at haccessor
    · obtain rfl := Option.some.inj haccessor
      simp [Raw.children] at hc
    · obtain rfl := Option.some.inj haccessor
      exact (List.mem_filter.1 (mem_of_mem_children_shapeOf hc)).1
    · cases haccessor

/-- Every descent in a tree comes to an end. -/
theorem finiteDescent (m : Metamodel) (e : Element (TreeNode ctx)) : e.FiniteDescent m := by
  refine ⟨e, fun c hc => ?_⟩
  have hlt := SyntaxTree.height_lt_of_mem_children (mem_children_of_under hc.under)
  exact finiteDescent m c
termination_by e.node.tree.height

/-- The outline of a node of a tree, or the first fault. -/
def outline (m : Metamodel) (limit : Option Nat) (e : Element (TreeNode ctx)) :
    Except Fault Outline :=
  (e.outline m limit).get (Element.isSome_outlineAt (fun _ => finiteDescent m e) 0)

theorem outline_eq_some (m : Metamodel) (limit : Option Nat) (e : Element (TreeNode ctx)) :
    e.outline m limit = some (outline m limit e) :=
  (Option.some_get _).symm

end TreeNode

end SourceOutline
