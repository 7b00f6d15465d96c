import Mathlib.Data.List.Permutation
import SourceOutline.Proofs.Outline.Plain

/-
  Outlines by plain recursion.

  `plainOutline` says what an outline is, without lists that are kept and without a depth that is
  counted: the span, then every reference in order looked up afresh, and every child by the same
  recursion with one level less. `outline` counts the depth up and compares it with the limit; an
  element at a depth is shown as plain recursion shows it with as many levels less
  (`outlineAt_eq_plainOutline`). So the two give the same outline or the same first fault, under
  every limit, and without one where no descent goes on for ever (`outline_eq_plainOutline`).
-/

namespace SourceOutline.Element

variable {ν : Type} [SyntaxNode ν] {m : Metamodel} {e : Element ν}

/-- The outline of an element by plain recursion; nothing if the recursion has no end. -/
def plainOutline (m : Metamodel) (limit : Option Nat) (e : Element ν) :
    ExceptT Fault Option Outline := do
  let span ← e.span
  let refs ← e.valuesOrder
  let values ← refs.mapM fun ref => do
    match ← e.valueAt m ref with
    | none => pure none
    | some (.value v) => pure (some (.mk ref.feature.name ref.index (.value v)))
    | some (.element child) =>
      let content ← (if limit = some 0 then pure (.elided child.entity.name)
        else .element <$> (plainOutline m (e := child)) (limit.map (· - 1)))
      pure (some (.mk ref.feature.name ref.index content))
  pure (.mk e.entity.name span (values.filterMap id))
partial_fixpoint

/-! ## The depth that is counted -/

/-- What a child is in the outline by plain recursion. -/
def plainContent (m : Metamodel) (limit : Option Nat) (child : Element ν) :
    ExceptT Fault Option OutlineContent :=
  if limit = some 0 then pure (.elided child.entity.name)
  else .element <$> child.plainOutline m (limit.map (· - 1))

theorem plainOutline_eq (m : Metamodel) (limit : Option Nat) (e : Element ν) :
    e.plainOutline m limit = e.outlineBy m (plainContent m limit) := by
  rw [plainOutline]
  rfl

/-- At a depth the limit has as many levels less. -/
theorem outlineAt_eq_plainOutline {limit : Option Nat} (h : limit = none → FiniteDescent m e)
    (depth : Nat) : e.outlineAt m limit depth = e.plainOutline m (limit.map (· - depth)) := by
  refine descent_induction (motive := fun depth e =>
    e.outlineAt m limit depth = e.plainOutline m (limit.map (· - depth))) ?_ h depth
  intro depth e ih
  rw [outlineAt_eq, plainOutline_eq]
  refine outlineBy_congr fun c hc => ?_
  have hcut : limit.any (· ≤ depth) ↔ limit.map (· - depth) = some 0 := by
    cases limit <;> simp [Nat.sub_eq_zero_iff_le]
  unfold contentAt plainContent
  by_cases h : limit.any (· ≤ depth)
  · rw [if_pos h, if_pos (hcut.1 h)]
  · rw [if_neg h, if_neg (mt hcut.2 h), ih c hc h, Option.map_map]
    rfl

/-- An outline is what plain recursion gives, outline or first fault, under every limit, and
    without a limit where the descent comes to an end; there is always one or the other. So a child
    is shown as its own outline with one level less. -/
theorem outline_eq_plainOutline (m : Metamodel) (limit : Option Nat) (e : Element ν)
    (hend : limit = none → FiniteDescent m e) :
    (∃ r, e.outline m limit = some r ∧ (e.plainOutline m limit).run = some r) ∧
      ∀ o, e.outline m limit = some (.ok o) → ∀ name i sub, .mk name i (.element sub) ∈ o.values →
        ∃ ref child, (ref.feature.name = name ∧ ref.index = i ∧
          e.valueAt m ref = .ok (some (.element child))) ∧
          child.outline m (limit.map (· - 1)) = some (.ok sub) := by
  constructor
  · obtain ⟨r, hr⟩ := Option.isSome_iff_exists.1 (isSome_outlineAt hend 0)
    refine ⟨r, hr, ?_⟩
    rw [outlineAt_eq_plainOutline hend] at hr
    simpa using hr
  · intro o ho name i sub h
    obtain ⟨refs, hrefs, ref, href, child, hplace, hsub⟩ := exists_child_of_mem_values ho h
    have hchild : Child m e child := ⟨refs, hrefs, ref, href, hplace.2.2⟩
    have hend' : limit = none → FiniteDescent m child := fun h => (hend h).inv hchild
    refine ⟨ref, child, hplace, ?_⟩
    -- one level down from the element, and as the root with one level less
    rw [outlineAt_eq_plainOutline hend'] at hsub
    rw [outline, outlineAt_eq_plainOutline (by simpa using hend')]
    simpa [Function.comp_def] using hsub

/-- Calls whose arguments are declared twice. -/
def callEntity : Entity :=
  ⟨"call", [], [⟨"args", .multiple, ["name"]⟩, ⟨"args", .multiple, []⟩]⟩

def callMetamodel : Metamodel := .ofEntities [callEntity, ⟨"name", [], []⟩]

/-- The call `f(a,b)` with its arguments in one field. -/
def callElement : Element (TreeNode
    ⟨"f(a,b)".toList, 6, (∅ : SlotTable).insertField "call" "args" (.field true false)⟩) :=
  ⟨⟨.node ⟨"call", true, none, 0, 6, 0, 0⟩
    [.node ⟨"name", true, some "args", 2, 3, 0, 2⟩ [],
      .node ⟨"name", true, some "args", 4, 5, 0, 4⟩ []]⟩, callEntity⟩

def callOrder : List Reference :=
  [⟨.relation ⟨"args", .multiple, ["name"]⟩, 0⟩, ⟨.relation ⟨"args", .multiple, []⟩, 0⟩,
    ⟨.relation ⟨"args", .multiple, ["name"]⟩, 1⟩, ⟨.relation ⟨"args", .multiple, []⟩, 1⟩]

/-- Each declaration of the arguments shows both of them. -/
theorem outline_eq_plainOutline_callElement :
    FiniteDescent callMetamodel callElement ∧
      ∃ o, callElement.outline callMetamodel none = some (.ok o) ∧
        (callElement.plainOutline callMetamodel none).run = some (.ok o) ∧ o.count = 5 := by
  have hfinite : FiniteDescent callMetamodel callElement := TreeNode.finiteDescent _ _
  have horder : callElement.valuesOrder = .ok callOrder := by cbv
  have hargument : ∀ c, Child callMetamodel callElement c →
      (c.contentAt callMetamodel none 0).run =
        some (c.span.map fun s => .element (.mk c.entity.name s [])) := by
    intro c hc
    have hwrap := hc.wrap_eq
    have hmem := TreeNode.mem_children_of_under hc.under
    obtain ⟨⟨t⟩, entity⟩ := c
    simp only [callElement, SyntaxTree.children, List.mem_cons, List.not_mem_nil, or_false] at hmem
    rcases hmem with rfl | rfl <;> cases hwrap <;> exact run_contentAt_of_featureless rfl rfl 0
  obtain ⟨o, ho, hcount⟩ : ∃ o, callElement.outline callMetamodel none = some (.ok o) ∧
      o.count = 5 := by
    rw [outline, run_outlineAt_eq hargument, outlineWith, horder]
    exact ⟨_, rfl, rfl⟩
  obtain ⟨⟨r, hr, hplain⟩, -⟩ :=
    outline_eq_plainOutline callMetamodel none callElement fun _ => hfinite
  obtain rfl := Option.some.inj (hr.symm.trans ho)
  exact ⟨hfinite, o, ho, hplain, hcount⟩

end SourceOutline.Element
