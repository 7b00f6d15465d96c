import Mathlib.Algebra.BigOperators.Group.List.Basic
import Mathlib.Algebra.Ring.Nat
import SourceOutline.Proofs.Element.Readable

/-
  The number of elements in an outline: one, and those of every child under a relation. For an
  element that can be read the sum is over the relations as declared (`exists_outlineWith`), in
  whichever order the values are listed.
-/

namespace SourceOutline.Element

variable {ν : Type} [SyntaxNode ν] {m : Metamodel} {e : Element ν}

/-- What a reference adds to a sum over the children. -/
def weightAt (e : Element ν) (weight : ν → Nat) (ref : Reference) : Nat :=
  match ref.feature with
  | .property _ => 0
  | .relation r => ((e.nodesOf r)[ref.index]?.map weight).getD 0

theorem map_range_getElem? {α : Type} (l : List α) (f : α → Nat) :
    (List.range l.length).map (fun i => (l[i]?.map f).getD 0) = l.map f := by
  refine List.ext_getElem (by simp) ?_
  intro i h₁ h₂
  have hi : i < l.length := by simpa using h₂
  simp [hi]

/-- The references to values add nothing, those to children what the children do. -/
theorem sum_weightAt_references (e : Element ν) (weight : ν → Nat) :
    (e.references.map (e.weightAt weight)).sum =
      ((e.entity.relations.flatMap e.nodesOf).map weight).sum := by
  have hproperties : ((e.entity.properties.flatMap fun p =>
      (List.range (e.valuesOf p).length).map fun i => (⟨.property p, i⟩ : Reference)).map
        (e.weightAt weight)).sum = 0 := by
    refine List.sum_eq_zero fun w hw => ?_
    obtain ⟨ref, href, rfl⟩ := List.mem_map.1 hw
    obtain ⟨p, -, href⟩ := List.mem_flatMap.1 href
    obtain ⟨i, -, rfl⟩ := List.mem_map.1 href
    rfl
  have hrelation : ∀ r, ((List.range (e.nodesOf r).length).map
      fun i => (⟨.relation r, i⟩ : Reference)).map (e.weightAt weight) =
        (e.nodesOf r).map weight := by
    intro r
    rw [List.map_map]
    exact map_range_getElem? (e.nodesOf r) weight
  rw [references, List.map_append, List.sum_append, hproperties, Nat.add_zero, List.map_flatMap,
    List.map_flatMap]
  simp only [hrelation]

/-- If every reference can be shown, the values are, and their counts add up. -/
theorem exists_plainValues {descend : Element ν → Except Fault OutlineContent}
    {weight : Reference → Nat} {refs : List Reference}
    (h : ∀ ref ∈ refs, ∃ r content, e.valueAt m ref = .ok (some r) ∧
      contentOf descend r = .ok content ∧ content.count = weight ref) :
    ∃ values, e.plainValues m descend refs = .ok values ∧
      OutlineValue.countAll values = (refs.map weight).sum := by
  induction refs with
  | nil => exact ⟨[], rfl, rfl⟩
  | cons ref refs ih =>
    obtain ⟨r, content, hvalue, hcontent, hcount⟩ := h ref (by simp)
    obtain ⟨values, hvalues, hsum⟩ := ih fun ref' href => h ref' (List.mem_cons_of_mem _ href)
    refine ⟨.mk ref.feature.name ref.index content :: values, ?_, ?_⟩
    · unfold plainValues
      rw [hvalue]
      simp [bind, Except.bind, pure, Except.pure, hcontent, hvalues]
    · simp [OutlineValue.countAll, hcount, hsum]

/-- An element whose children can all be shown has an outline, which counts one more than the
    children together. -/
theorem Readable.exists_outlineWith (h : e.Readable)
    {descend : Element ν → Except Fault OutlineContent} {weight : ν → Nat}
    (hdescend : ∀ r ∈ e.entity.relations, ∀ n ∈ e.nodesOf r, ∃ c content, wrap m n = .ok c ∧
      descend c = .ok content ∧ content.count = weight n) :
    ∃ o, e.outlineWith m descend = .ok o ∧
      o.count = 1 + ((e.entity.relations.flatMap e.nodesOf).map weight).sum := by
  obtain ⟨span, hspan⟩ := h.exists_span
  obtain ⟨refs, hrefs, hperm⟩ := h.exists_valuesOrder
  have hvalues : ∀ ref ∈ refs, ∃ r content, e.valueAt m ref = .ok (some r) ∧
      contentOf descend r = .ok content ∧ content.count = e.weightAt weight ref := by
    intro ref href
    rw [hperm.mem_iff] at href
    obtain ⟨p | r, i⟩ := ref
    · obtain ⟨hp, hi⟩ := mem_references_property.1 href
      refine ⟨.value (e.valuesOf p)[i], .value (e.valuesOf p)[i], ?_, rfl, rfl⟩
      rw [h.valueAt_property hp, List.getElem?_eq_getElem hi]
      rfl
    · obtain ⟨hr, hi⟩ := mem_references_relation.1 href
      have hwrap : ∀ n ∈ e.nodesOf r,
          wrap m n = .ok ⟨n, (m.entity? (SyntaxNode.rule n)).getD e.entity⟩ := by
        intro n hn
        obtain ⟨c, -, hc, -⟩ := hdescend r hr n hn
        obtain ⟨-, hentity⟩ := wrap_eq_ok_iff.1 hc
        exact wrap_eq_ok_iff.2 ⟨rfl, by rw [hentity, Option.getD_some]⟩
      have hmem := List.getElem_mem hi
      obtain ⟨c, content, hc, hcontent, hcount⟩ := hdescend r hr _ hmem
      obtain rfl := Except.ok.inj ((hwrap _ hmem).symm.trans hc)
      refine ⟨.element _, content, ?_, hcontent, ?_⟩
      · rw [h.valueAt_relation hr, mapM_eq_ok hwrap]
        simp [bind, Except.bind, pure, Except.pure, hi]
      · simp [weightAt, hi, hcount]
  obtain ⟨values, hplain, hsum⟩ := exists_plainValues hvalues
  refine ⟨.mk e.entity.name span values, ?_, ?_⟩
  · rw [outlineWith, hspan, hrefs]
    simp [bind, Except.bind, pure, Except.pure, hplain]
  · rw [Outline.count, hsum, (hperm.map _).sum_eq, sum_weightAt_references]

end SourceOutline.Element
