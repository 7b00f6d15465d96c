import Mathlib.Data.List.Permutation
import SourceOutline.Node.Graph
import SourceOutline.Proofs.Outline.Plain

/-
  Depth limits only cut.

  `truncate` cuts an outline at a depth: the children held by an element there are replaced by the
  names of their entities. An outline under a limit is the outline under any higher limit, or under
  none, cut at the limit (`outlineAt_truncate`). So a limit brings in no fault, and a higher limit
  shows no fewer elements (`count_truncate_le`).
-/

namespace SourceOutline

/-! ## Cutting an outline -/

mutual

/-- Leaves out the children of the elements at `depth`, the outline itself being at depth 0. -/
def Outline.truncate (depth : Nat) : Outline → Outline
  | .mk entity span values => .mk entity span (OutlineValue.truncateAll depth values)

def OutlineValue.truncateAll (depth : Nat) : List OutlineValue → List OutlineValue
  | [] => []
  | .mk name index content :: values =>
    .mk name index (content.truncate depth) :: OutlineValue.truncateAll depth values

def OutlineContent.truncate (depth : Nat) : OutlineContent → OutlineContent
  | .value v => .value v
  | .elided entity => .elided entity
  | .element o =>
    match depth with
    | 0 => .elided o.entity
    | depth + 1 => .element (o.truncate depth)

end

mutual

theorem Outline.count_truncate_le (depth : Nat) (o : Outline) :
    (o.truncate depth).count ≤ o.count := by
  cases o with
  | mk entity span values =>
    rw [Outline.truncate, Outline.count, Outline.count]
    exact Nat.add_le_add_left (OutlineValue.countAll_truncateAll_le depth values) 1

theorem OutlineValue.countAll_truncateAll_le (depth : Nat) (values : List OutlineValue) :
    OutlineValue.countAll (OutlineValue.truncateAll depth values) ≤
      OutlineValue.countAll values := by
  match values with
  | [] => exact Nat.le_refl _
  | .mk name index content :: values =>
    rw [OutlineValue.truncateAll, OutlineValue.countAll, OutlineValue.countAll]
    exact Nat.add_le_add (content.count_truncate_le depth)
      (OutlineValue.countAll_truncateAll_le depth values)

theorem OutlineContent.count_truncate_le (depth : Nat) (content : OutlineContent) :
    (content.truncate depth).count ≤ content.count := by
  match content, depth with
  | .value v, _ => exact Nat.le_refl _
  | .elided entity, _ => exact Nat.le_refl _
  | .element o, 0 => exact Nat.zero_le _
  | .element o, depth + 1 => exact o.count_truncate_le depth

end

/-! ## Outlines under two limits -/

namespace Element

variable {ν : Type} [SyntaxNode ν] {m : Metamodel} {e : Element ν}

theorem plainValues_truncate {descend deeper : Element ν → Except Fault OutlineContent}
    {depth : Nat} (h : ∀ c content, deeper c = .ok content →
      descend c = .ok (content.truncate depth))
    {refs : List Reference} {values : List OutlineValue}
    (hvalues : e.plainValues m deeper refs = .ok values) :
    e.plainValues m descend refs = .ok (OutlineValue.truncateAll depth values) := by
  have hcontent : ∀ r content, contentOf deeper r = .ok content →
      contentOf descend r = .ok (content.truncate depth) := by
    intro r content hr
    cases r with
    | value v =>
      obtain rfl := Except.ok.inj hr
      rfl
    | element c => exact h c content hr
  induction refs generalizing values with
  | nil =>
    obtain rfl := Except.ok.inj hvalues
    rfl
  | cons ref refs ih =>
    unfold plainValues at hvalues ⊢
    obtain ⟨r, hr, hvalues⟩ := exists_of_bind_eq_ok hvalues
    rw [hr]
    cases r with
    | none => exact ih hvalues
    | some r =>
      obtain ⟨content, hshown, hvalues⟩ := exists_of_bind_eq_ok hvalues
      obtain ⟨rest, hrest, hvalues⟩ := exists_of_bind_eq_ok hvalues
      obtain rfl := Except.ok.inj hvalues
      simp only [bind, Except.bind, hcontent r content hshown, ih hrest]
      rfl

/-- If the contents below are cut one level further down, the outline is cut. -/
theorem outlineWith_truncate {descend deeper : Element ν → Except Fault OutlineContent}
    {depth : Nat} (h : ∀ c content, deeper c = .ok content →
      descend c = .ok (content.truncate depth))
    {o : Outline} (ho : e.outlineWith m deeper = .ok o) :
    e.outlineWith m descend = .ok (o.truncate depth) := by
  obtain ⟨span, hspan, ho⟩ := exists_of_bind_eq_ok ho
  obtain ⟨refs, hrefs, ho⟩ := exists_of_bind_eq_ok ho
  obtain ⟨values, hvalues, ho⟩ := exists_of_bind_eq_ok ho
  obtain rfl := Except.ok.inj ho
  rw [outlineWith, hspan, hrefs]
  simp only [bind, Except.bind, plainValues_truncate h hvalues]
  rfl

theorem entity_of_outlineWith {descend : Element ν → Except Fault OutlineContent} {o : Outline}
    (ho : e.outlineWith m descend = .ok o) : o.entity = e.entity.name := by
  obtain ⟨span, -, ho⟩ := exists_of_bind_eq_ok ho
  obtain ⟨refs, -, ho⟩ := exists_of_bind_eq_ok ho
  obtain ⟨values, -, ho⟩ := exists_of_bind_eq_ok ho
  obtain rfl := Except.ok.inj ho
  rfl

theorem content_truncate_zero {limit : Option Nat} {depth : Nat} {c : Element ν}
    {content : OutlineContent} (h : (c.contentAt m limit depth).run = some (.ok content)) :
    content.truncate 0 = .elided c.entity.name := by
  by_cases hcut : limit.any (· ≤ depth)
  · cases (run_contentAt_of_cut hcut).symm.trans h
    rfl
  · obtain ⟨sub, rfl, hsub⟩ := (run_contentAt_eq_ok_iff hcut).1 h
    rw [OutlineContent.truncate, entity_of_outlineWith (outlineWith_of_outlineAt hsub)]

/-- If the children are shown cut, the outline is. -/
theorem outlineAt_of_contentAt {limit : Option Nat} {start start' bound depth : Nat}
    (h : ∀ (c : Element ν) content, (c.contentAt m limit start).run = some (.ok content) →
      (c.contentAt m (some bound) start').run = some (.ok (content.truncate depth)))
    {o : Outline} (ho : (e.outlineAt m limit start).run = some (.ok o)) :
    (e.outlineAt m (some bound) start').run = some (.ok (o.truncate depth)) := by
  have hend : (some bound : Option Nat) = none → FiniteDescent m e := by simp
  obtain ⟨r, hr⟩ := Option.isSome_iff_exists.1 (isSome_outlineAt hend start')
  rw [hr, ← outlineWith_of_outlineAt hr]
  refine congrArg some (outlineWith_truncate (fun c content hc => ?_) (outlineWith_of_outlineAt ho))
  exact gives_settle _ _ (h c content (run_of_settle_eq_ok hc))

/-- An outline under a limit is the outline under a higher one, or under none, cut at the limit. The
    two may stand at different depths: what counts is how far below them the limits are. -/
theorem outlineAt_truncate {limit : Option Nat} {depth start : Nat}
    (hle : ∀ deep ∈ limit, start + depth ≤ deep) {o : Outline}
    (ho : (e.outlineAt m limit start).run = some (.ok o)) (start' : Nat) :
    (e.outlineAt m (some (start' + depth)) start').run = some (.ok (o.truncate depth)) := by
  induction depth generalizing e start start' o with
  | zero =>
    refine outlineAt_of_contentAt (fun c content hc => ?_) ho
    rw [content_truncate_zero hc]
    exact run_contentAt_of_cut (by simp)
  | succ depth ih =>
    refine outlineAt_of_contentAt (fun c content hc => ?_) ho
    have hcut : ¬ limit.any (· ≤ start) := by
      cases limit with
      | none => simp
      | some deep =>
        have hdeep := hle deep rfl
        simp
        omega
    have hcut' : ¬ (some (start' + (depth + 1))).any (· ≤ start') := by
      simp
    obtain ⟨sub, rfl, hsub⟩ := (run_contentAt_eq_ok_iff hcut).1 hc
    refine (run_contentAt_eq_ok_iff hcut').2 ⟨sub.truncate depth, rfl, ?_⟩
    have hdeeper : ∀ deep ∈ limit, start + 1 + depth ≤ deep := by
      intro deep hdeep
      have := hle deep hdeep
      omega
    have hsub' := ih hdeeper hsub (start' + 1)
    rwa [Nat.add_right_comm] at hsub'

/-- Depth limits only cut. Under a limit the descent always comes to an end, and where a higher
    limit, or none, gives an outline, the limit gives that outline cut at its depth, with no more
    elements. -/
theorem outline_truncate (m : Metamodel) (e : Element ν) (depth : Nat) (limit : Option Nat)
    (hle : ∀ deep ∈ limit, depth ≤ deep) :
    (∃ r, e.outline m (some depth) = some r) ∧
      ∀ o, e.outline m limit = some (.ok o) →
        e.outline m (some depth) = some (.ok (o.truncate depth)) ∧
          (o.truncate depth).count ≤ o.count := by
  refine ⟨Option.isSome_iff_exists.1 (isSome_outlineAt (by simp) 0), fun o ho => ⟨?_, ?_⟩⟩
  · have hstart : ∀ deep ∈ limit, 0 + depth ≤ deep := by simpa using hle
    have hcut := outlineAt_truncate hstart ho 0
    rwa [Nat.zero_add] at hcut
  · exact o.count_truncate_le depth

/-- A list that is its own rest, and a list of four items with its rests. -/
def listGraph : NodeGraph := ⟨5, fun place => {
    rule := "list", interval := ⟨0, 1⟩, text := "l", first := some ⟨1, 0, "l", false⟩,
    last := some ⟨1, 0, "l", false⟩,
    fields := [("rest", .node (match place with | 0 => some 0 | 4 => none | i => some (i + 1)))] }⟩

def listEntity : Entity := ⟨"list", [], [⟨"rest", .single, []⟩]⟩

def ring : Element (GraphNode listGraph) := ⟨⟨(0 : Fin 5)⟩, listEntity⟩

def fourItems : Element (GraphNode listGraph) := ⟨⟨(1 : Fin 5)⟩, listEntity⟩

theorem outline_truncate_ring :
    (∃ o, ring.outline (.ofEntities [listEntity]) (some 3) = some (.ok o) ∧ o.count = 4 ∧
      ring.outline (.ofEntities [listEntity]) (some 1) = some (.ok (o.truncate 1)) ∧
      (o.truncate 1).count ≤ 4) ∧
    ∃ o, fourItems.outline (.ofEntities [listEntity]) none = some (.ok o) ∧ o.count = 4 ∧
      fourItems.outline (.ofEntities [listEntity]) (some 2) = some (.ok (o.truncate 2)) ∧
      (o.truncate 2).count ≤ 4 := by
  have hring : ((ring.outline (.ofEntities [listEntity]) (some 3)).bind
      Except.toOption).map Outline.count = some 4 := by decide_cbv
  have hitems : ((fourItems.outline (.ofEntities [listEntity]) none).bind
      Except.toOption).map Outline.count = some 4 := by decide_cbv
  obtain ⟨o, ho, hcount⟩ := exists_of_count_eq hring
  obtain ⟨o', ho', hcount'⟩ := exists_of_count_eq hitems
  have hcut := (outline_truncate (.ofEntities [listEntity]) ring 1 (some 3) (by simp)).2 o ho
  have hcut' := (outline_truncate (.ofEntities [listEntity]) fourItems 2 none (by simp)).2 o' ho'
  exact ⟨⟨o, ho, hcount, hcut.1, hcount ▸ hcut.2⟩, o', ho', hcount', hcut'.1, hcount' ▸ hcut'.2⟩

end Element

end SourceOutline
