import Mathlib.Data.List.Permutation
import SourceOutline.Proofs.Element.FirstFault
import SourceOutline.Proofs.Element.StableOrder

/-
  References lead back to what was put in order.

  The values of an element are put in order before any child is wrapped, and each reference is then
  resolved on its own. Both go by what stands under the feature (`valueAt_property`,
  `valueAt_relation`), so a reference leads to the very value or child by whose start it was sorted,
  or, where a child of the same relation has no entity, to the fault of the first such child
  (`LeadsBack`). It never leads to nothing, and so an outline shows every reference
  (`leadsBack_of_valuesOrder`).
-/

namespace SourceOutline

theorem exists_of_faultOf?_eq_none {α : Type} {x : Except Fault α} (h : faultOf? x = none) :
    ∃ a, x = .ok a := by
  cases x with
  | error fault => cases h
  | ok a => exact ⟨a, rfl⟩

/-- The name and the index that an outline shows for a value. -/
def OutlineValue.place : OutlineValue → String × Nat
  | .mk name index _ => (name, index)

def Reference.place (ref : Reference) : String × Nat := (ref.feature.name, ref.index)

namespace Element

variable {ν : Type} [SyntaxNode ν] {m : Metamodel} {e : Element ν}

open SyntaxNode

/-! ## Children without entity -/

/-- No entity is registered for the rule of a node. -/
def unknown (m : Metamodel) (n : ν) : Bool := (m.entity? (rule n)).isNone

theorem faultOf?_wrap (m : Metamodel) (n : ν) :
    faultOf? (wrap m n) = if unknown m n then some (.unknownEntity (rule n)) else none := by
  unfold wrap unknown
  cases m.entity? (rule n) <;> rfl

/-- Nodes are wrapped together unless one has no entity, and then the first such one is at fault. -/
theorem faultOf?_mapM_wrap (m : Metamodel) (ns : List ν) :
    faultOf? (ns.mapM (wrap m)) =
      (ns.find? (unknown m)).map fun n => .unknownEntity (rule n) := by
  rw [faultOf?_mapM]
  induction ns with
  | nil => rfl
  | cons n ns ih =>
    rw [List.findSome?_cons, List.find?_cons, faultOf?_wrap, ih]
    cases unknown m n <;> rfl

/-! ## Where references lead -/

/-- The reference of a listed value leads to the value at its index under the property, and this
    was listed with its start. -/
def LeadsToValue (m : Metamodel) (e : Element ν) (p : Property) (v : Emitted) : Prop :=
  ∃ values value, e.valuesUnder p = .ok values ∧ values[v.reference.index]? = some value ∧
    v.start = value.interval?.map Interval.start ∧
    e.valueAt m v.reference = .ok (some (.value value))

/-- The reference of a listed child leads to the child at its index under the relation, and this was
    listed with its start. If some child under the relation has no entity, the reference leads to
    the fault of the first such child. -/
def LeadsToChild (m : Metamodel) (e : Element ν) (r : Relation) (v : Emitted) : Prop :=
  ∃ children child, e.childrenUnder r = .ok children ∧
    children[v.reference.index]? = some child ∧ v.start = some (SyntaxNode.interval child).start ∧
    match children.find? (unknown m) with
    | none => ∃ c, e.valueAt m v.reference = .ok (some (.element c)) ∧ wrap m child = .ok c ∧
      c.interval = SyntaxNode.interval child ∧ c.entity.name = rule child
    | some n => e.valueAt m v.reference = .error (.unknownEntity (rule n))

/-- The reference of a listed value leads back to what was listed. -/
def LeadsBack (m : Metamodel) (e : Element ν) (v : Emitted) : Prop :=
  match v.reference.feature with
  | .property p => LeadsToValue m e p v
  | .relation r => LeadsToChild m e r v

theorem valueAt_of_valuesUnder {p : Property} {values : List Value}
    (h : e.valuesUnder p = .ok values) {i : Nat} {value : Value} (hi : values[i]? = some value) :
    e.valueAt m ⟨.property p, i⟩ = .ok (some (.value value)) := by
  rw [valueAt_property, h]
  show Except.ok (values[i]?.map Resolved.value) = _
  rw [hi]
  rfl

theorem valueAt_of_childrenUnder {r : Relation} {children : List ν}
    (h : e.childrenUnder r = .ok children) {i : Nat} {child : ν} (hi : children[i]? = some child) :
    match children.find? (unknown m) with
    | none => ∃ c, e.valueAt m ⟨.relation r, i⟩ = .ok (some (.element c)) ∧ wrap m child = .ok c
    | some n => e.valueAt m ⟨.relation r, i⟩ = .error (.unknownEntity (rule n)) := by
  have hvalue : e.valueAt m ⟨.relation r, i⟩ =
      (do pure ((← children.mapM (wrap m))[i]?.map .element)) := by
    rw [valueAt_relation, h]
    rfl
  have hfault := faultOf?_mapM_wrap m children
  split
  · next hnone =>
    rw [hnone] at hfault
    obtain ⟨cs, hcs⟩ := exists_of_faultOf?_eq_none hfault
    obtain ⟨c, hc, hwrap⟩ := getElem?_of_mapM_eq_ok hcs hi
    refine ⟨c, ?_, hwrap⟩
    rw [hvalue, hcs]
    show Except.ok (cs[i]?.map Resolved.element) = _
    rw [hc]
    rfl
  · next n hn =>
    rw [hn] at hfault
    rw [hvalue, faultOf?_eq_some_iff.1 hfault]
    rfl

theorem leadsBack_of_mem_emission {listed : List Emitted} (h : e.emission = .ok listed)
    {v : Emitted} (hv : v ∈ listed) : LeadsBack m e v := by
  obtain ⟨hrelations, hproperties, hlisted⟩ := emission_eq_ok_iff.1 h
  rw [hlisted, ← emitted_eq] at hv
  obtain ⟨⟨feature, i⟩, start⟩ := v
  rcases cases_of_mem_emitted hv with ⟨r, hr, hfeature, hstart⟩ | ⟨p, hp, hfeature, hstart⟩
  · obtain rfl := hfeature
    obtain ⟨child, hchild, hstart⟩ := Option.map_eq_some_iff.1 hstart
    have hvalue := valueAt_of_childrenUnder (m := m) (hrelations r hr) hchild
    refine ⟨e.nodesOf r, child, hrelations r hr, hchild, hstart.symm, ?_⟩
    split at hvalue
    · obtain ⟨c, hc, hwrap⟩ := hvalue
      obtain ⟨hnode, hentity⟩ := wrap_eq_ok_iff.1 hwrap
      refine ⟨c, hc, hwrap, ?_, Metamodel.name_of_entity? hentity⟩
      rw [Element.interval, hnode]
    · exact hvalue
  · obtain rfl := hfeature
    obtain ⟨value, hvalue, hstart⟩ := Option.map_eq_some_iff.1 hstart
    exact ⟨e.valuesOf p, value, hproperties p hp, hvalue, hstart.symm,
      valueAt_of_valuesUnder (hproperties p hp) hvalue⟩

theorem LeadsBack.valueAt_ne_none {v : Emitted} (h : LeadsBack m e v) :
    e.valueAt m v.reference ≠ .ok none := by
  intro hnone
  unfold LeadsBack at h
  split at h
  · obtain ⟨values, value, -, -, -, hvalue⟩ := h
    rw [hnone] at hvalue
    cases hvalue
  · obtain ⟨children, child, -, -, -, hvalue⟩ := h
    split at hvalue
    · obtain ⟨c, hc, -⟩ := hvalue
      rw [hnone] at hc
      cases hc
    · rw [hnone] at hvalue
      cases hvalue

/-! ## Outlines -/

/-- Where no reference leads to nothing, every reference is shown. -/
theorem map_place_of_plainValues {descend : Element ν → Except Fault OutlineContent}
    {refs : List Reference} (hsome : ∀ ref ∈ refs, e.valueAt m ref ≠ .ok none)
    {values : List OutlineValue} (h : e.plainValues m descend refs = .ok values) :
    values.map OutlineValue.place = refs.map Reference.place := by
  induction refs generalizing values with
  | nil =>
    obtain rfl := Except.ok.inj h
    rfl
  | cons ref refs ih =>
    unfold plainValues at h
    obtain ⟨r, hr, h⟩ := exists_of_bind_eq_ok h
    cases r with
    | none => exact absurd hr (hsome ref List.mem_cons_self)
    | some r =>
      obtain ⟨content, -, h⟩ := exists_of_bind_eq_ok h
      obtain ⟨rest, hrest, h⟩ := exists_of_bind_eq_ok h
      obtain rfl := Except.ok.inj h
      have hplaces := ih (fun ref' h' => hsome ref' (List.mem_cons_of_mem _ h')) hrest
      rw [List.map_cons, List.map_cons, hplaces]
      rfl

theorem map_place_of_outlineWith {descend : Element ν → Except Fault OutlineContent}
    {refs : List Reference} (hrefs : e.valuesOrder = .ok refs)
    (hsome : ∀ ref ∈ refs, e.valueAt m ref ≠ .ok none) {o : Outline}
    (ho : e.outlineWith m descend = .ok o) :
    o.values.map OutlineValue.place = refs.map Reference.place := by
  obtain ⟨span, -, ho⟩ := exists_of_bind_eq_ok ho
  obtain ⟨refs', hrefs', ho⟩ := exists_of_bind_eq_ok ho
  obtain rfl := Except.ok.inj (hrefs.symm.trans hrefs')
  obtain ⟨values, hvalues, ho⟩ := exists_of_bind_eq_ok ho
  obtain rfl := Except.ok.inj ho
  exact map_place_of_plainValues hsome hvalues

/-- The references of an element, sorted by the starts with which they are listed, lead back to what
    was listed. None leads to nothing, and every outline of the element shows all of them in their
    order. -/
theorem leadsBack_of_valuesOrder (m : Metamodel) (e : Element ν) (refs : List Reference)
    (h : e.valuesOrder = .ok refs) :
    (∃ listed, e.emission = .ok listed ∧
      refs = (listed.mergeSort Emitted.le).map Emitted.reference ∧
      ∀ v ∈ listed.mergeSort Emitted.le, LeadsBack m e v) ∧
    (∀ ref ∈ refs, e.valueAt m ref ≠ .ok none) ∧
    ∀ limit o, e.outline m limit = some (.ok o) →
      o.values.map OutlineValue.place = refs.map Reference.place := by
  obtain ⟨listed, hlisted, hrefs⟩ := exists_of_bind_eq_ok h
  obtain rfl := Except.ok.inj hrefs
  have hback : ∀ v ∈ listed.mergeSort Emitted.le, LeadsBack m e v := by
    intro v hv
    exact leadsBack_of_mem_emission hlisted (List.mem_mergeSort.1 hv)
  have hsome : ∀ ref ∈ (listed.mergeSort Emitted.le).map Emitted.reference,
      e.valueAt m ref ≠ .ok none := by
    intro ref href
    obtain ⟨v, hv, rfl⟩ := List.mem_map.1 href
    exact (hback v hv).valueAt_ne_none
  refine ⟨⟨listed, hlisted, rfl, hback⟩, hsome, ?_⟩
  intro limit o ho
  exact map_place_of_outlineWith h hsome (outlineWith_of_outlineAt ho)

/-- The call `f(a,?)`, which has a gap for its second argument. -/
def gapCallGraph : NodeGraph where
  size := 4
  entry
    | 0 => {
        rule := "call", interval := ⟨0, 6⟩, text := "f(a,?)", first := some ⟨1, 0, "f", false⟩,
        last := some ⟨1, 5, ")", false⟩,
        fields := [("function", .node (some 1)), ("arguments", .nodes [2, 3]),
          ("open", .value (some (.token "(" "(" ⟨1, 2⟩)))] }
    | 1 => { rule := "name", interval := ⟨0, 1⟩ }
    | 2 => { rule := "name", interval := ⟨2, 3⟩ }
    | 3 => { rule := "gap", interval := ⟨4, 5⟩ }

def gapCall : Element (GraphNode gapCallGraph) :=
  ⟨⟨(0 : Fin 4)⟩, ⟨"call", [⟨"open", .single⟩, ⟨"start_line", .single⟩],
    [⟨"arguments", .multiple, []⟩, ⟨"function", .single, []⟩]⟩⟩

def gapCallOrder : List Reference :=
  [⟨.property ⟨"start_line", .single⟩, 0⟩, ⟨.relation ⟨"function", .single, []⟩, 0⟩,
    ⟨.property ⟨"open", .single⟩, 0⟩, ⟨.relation ⟨"arguments", .multiple, []⟩, 0⟩,
    ⟨.relation ⟨"arguments", .multiple, []⟩, 1⟩]

/-- Entities without features for the rules of the children. -/
def childMetamodel (rules : List String) : Metamodel :=
  .ofEntities (rules.map fun rule => ⟨rule, [], []⟩)

/-- Without an entity for the gap neither argument can be had; with one, all is shown. -/
theorem leadsBack_of_valuesOrder_gapCall :
    gapCall.valuesOrder = .ok gapCallOrder ∧
      gapCall.valueAt (childMetamodel ["name"]) ⟨.relation ⟨"arguments", .multiple, []⟩, 0⟩ =
        .error (.unknownEntity "gap") ∧
      (∀ ref ∈ gapCallOrder, gapCall.valueAt (childMetamodel ["name"]) ref ≠ .ok none) ∧
      ∃ o, gapCall.outline (childMetamodel ["name", "gap"]) (some 0) = some (.ok o) ∧
        o.values.map OutlineValue.place = gapCallOrder.map Reference.place := by
  have horder : gapCall.valuesOrder = .ok gapCallOrder := by cbv
  have hcount : ((gapCall.outline (childMetamodel ["name", "gap"]) (some 0)).bind
      Except.toOption).map Outline.count = some 1 := by decide_cbv
  obtain ⟨o, ho, -⟩ := exists_of_count_eq hcount
  obtain ⟨-, hsome, -⟩ := leadsBack_of_valuesOrder (childMetamodel ["name"]) gapCall _ horder
  obtain ⟨-, -, hshown⟩ :=
    leadsBack_of_valuesOrder (childMetamodel ["name", "gap"]) gapCall _ horder
  exact ⟨horder, rfl, hsome, o, ho, hshown (some 0) o ho⟩

end Element

end SourceOutline
