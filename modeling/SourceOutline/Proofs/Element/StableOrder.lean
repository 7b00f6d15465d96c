import Mathlib.Data.List.Pairwise
import SourceOutline.Proofs.Element.Readable

/-
  The order of the values of an element is a stable sort of all that the element holds.

  What the features hold is listed feature by feature, each value with the offset at which it starts
  (`Emits`). The sort keeps all of it, puts what stands nowhere in the source first and the rest by
  their offsets, and leaves values with the same offset as they were listed (`StableSort`). Only one
  list is so sorted (`StableSort.unique`). So an element has an order exactly if all its features
  can be read, and this list is the order (`valuesOrder_eq_ok_iff`).
-/

namespace SourceOutline

/-- The offset at which a value starts; only a token has one. -/
def Value.start? : Value → Option UInt64
  | .bool _ => none
  | .int _ => none
  | .text _ => none
  | .token _ _ interval => some interval.start

theorem Value.start?_eq (v : Value) : v.start? = v.interval?.map Interval.start := by
  cases v <;> rfl

/-! ## Sorting by offset -/

namespace Emitted

theorem le_iff {v w : Emitted} :
    v.le w = true ↔ (w.start = none → v.start = none) ∧
      ∀ a ∈ v.start, ∀ b ∈ w.start, a.toNat ≤ b.toNat := by
  unfold le
  cases v.start with
  | none => simp [startLe]
  | some a =>
    cases w.start with
    | none => simp [startLe]
    | some b => simp [startLe, UInt64.le_iff_toNat_le]

theorem le_trans (a b c : Emitted) (hab : a.le b = true) (hbc : b.le c = true) :
    a.le c = true := by
  unfold le at *
  cases ha : a.start with
  | none => rfl
  | some x =>
    cases hb : b.start with
    | none => simp [ha, hb, startLe] at hab
    | some y =>
      cases hc : c.start with
      | none => simp [hb, hc, startLe] at hbc
      | some z =>
        simp only [ha, hb, hc, startLe, decide_eq_true_eq] at hab hbc ⊢
        exact UInt64.le_trans hab hbc

theorem le_total (a b : Emitted) : (a.le b || b.le a) = true := by
  unfold le
  cases ha : a.start with
  | none => rfl
  | some x =>
    cases hb : b.start with
    | none => rfl
    | some y =>
      simp only [startLe, Bool.or_eq_true, decide_eq_true_eq]
      exact UInt64.le_total x y

theorem start_eq_of_le {a b : Emitted} (hab : a.le b = true) (hba : b.le a = true) :
    a.start = b.start := by
  unfold le at hab hba
  cases ha : a.start with
  | none =>
    cases hb : b.start with
    | none => rfl
    | some y => simp [ha, hb, startLe] at hba
  | some x =>
    cases hb : b.start with
    | none => simp [ha, hb, startLe] at hab
    | some y =>
      simp only [ha, hb, startLe, decide_eq_true_eq] at hab hba
      rw [UInt64.le_antisymm hab hba]

theorem le_of_start_eq {a b : Emitted} (h : a.start = b.start) : a.le b = true := by
  refine le_iff.2 ⟨fun hb => h.trans hb, fun x hx y hy => ?_⟩
  rw [h] at hx
  exact (Option.mem_unique hx hy) ▸ Nat.le_refl _

/-- The values of a list that start at an offset, or those without one, in their order. -/
def startingAt (start : Option UInt64) (l : List Emitted) : List Emitted :=
  l.filter fun v => v.start = start

theorem mem_startingAt {start : Option UInt64} {v : Emitted} {l : List Emitted} :
    v ∈ startingAt start l ↔ v ∈ l ∧ v.start = start := by
  simp [startingAt]

theorem startingAt_cons (start : Option UInt64) (v : Emitted) (l : List Emitted) :
    startingAt start (v :: l) =
      if v.start = start then v :: startingAt start l else startingAt start l := by
  unfold startingAt
  rw [List.filter_cons]
  simp only [decide_eq_true_eq]

/-- `sorted` is `listed` in the order of the offsets, values without one first, and values with
    the same offset, or without, as they were listed. -/
structure StableSort (listed sorted : List Emitted) : Prop where
  perm : sorted.Perm listed
  unplacedFirst : sorted.Pairwise fun v w => w.start = none → v.start = none
  ascending : sorted.Pairwise fun v w => ∀ a ∈ v.start, ∀ b ∈ w.start, a.toNat ≤ b.toNat
  stable : ∀ start, startingAt start sorted = startingAt start listed

/-- Values of one offset are in order already, so the sort leaves them as they are. -/
theorem startingAt_mergeSort (start : Option UInt64) (listed : List Emitted) :
    startingAt start (listed.mergeSort le) = startingAt start listed := by
  have hsame : (startingAt start listed).Pairwise fun v w => v.le w = true := by
    refine List.pairwise_of_forall_mem_list fun v hv w hw => le_of_start_eq ?_
    exact (mem_startingAt.1 hv).2.trans (mem_startingAt.1 hw).2.symm
  have hsub := List.sublist_mergeSort le_trans le_total hsame List.filter_sublist
  have hkept : (startingAt start (startingAt start listed)).Sublist
      (startingAt start (listed.mergeSort le)) := hsub.filter _
  have hidem : startingAt start (startingAt start listed) = startingAt start listed := by
    simp [startingAt]
  have hperm : (startingAt start (listed.mergeSort le)).Perm (startingAt start listed) :=
    (List.mergeSort_perm listed le).filter _
  rw [hidem] at hkept
  exact (hkept.eq_of_length hperm.length_eq.symm).symm

theorem stableSort_mergeSort (listed : List Emitted) :
    StableSort listed (listed.mergeSort le) := by
  have hsorted := List.pairwise_mergeSort le_trans le_total listed
  refine ⟨List.mergeSort_perm listed le, ?_, ?_, fun start => startingAt_mergeSort start listed⟩
  · exact hsorted.imp fun h => (le_iff.1 h).1
  · exact hsorted.imp fun h => (le_iff.1 h).2

/-! ## One sorted list only -/

theorem mem_iff_of_startingAt_eq {l l' : List Emitted}
    (h : ∀ start, startingAt start l = startingAt start l') {v : Emitted} : v ∈ l ↔ v ∈ l' := by
  have hv : v ∈ startingAt v.start l ↔ v ∈ startingAt v.start l' := by rw [h]
  simpa [mem_startingAt] using hv

theorem le_of_mem_cons {v w : Emitted} {l : List Emitted} (hl : ∀ u ∈ l, v.le u = true)
    (hw : w ∈ v :: l) : v.le w = true := by
  rcases List.mem_cons.1 hw with rfl | hw
  · exact le_of_start_eq rfl
  · exact hl w hw

/-- Sorted lists that have the same values at every offset are equal: both start at the least
    offset, and with the first value that has it. -/
theorem eq_of_startingAt_eq {l l' : List Emitted} (hl : l.Pairwise fun v w => v.le w = true)
    (hl' : l'.Pairwise fun v w => v.le w = true)
    (h : ∀ start, startingAt start l = startingAt start l') : l = l' := by
  induction l generalizing l' with
  | nil =>
    refine (List.eq_nil_iff_forall_not_mem.2 fun v hv => ?_).symm
    exact absurd ((mem_iff_of_startingAt_eq h).2 hv) List.not_mem_nil
  | cons v l ih =>
    cases l' with
    | nil => exact absurd ((mem_iff_of_startingAt_eq h).1 List.mem_cons_self) List.not_mem_nil
    | cons w l' =>
      obtain ⟨hv, htail⟩ := List.pairwise_cons.1 hl
      obtain ⟨hw, htail'⟩ := List.pairwise_cons.1 hl'
      have hvw := le_of_mem_cons hv ((mem_iff_of_startingAt_eq h).2 List.mem_cons_self)
      have hwv := le_of_mem_cons hw ((mem_iff_of_startingAt_eq h).1 List.mem_cons_self)
      have hstart := start_eq_of_le hvw hwv
      have hfirst := h v.start
      rw [startingAt_cons, startingAt_cons, if_pos rfl, if_pos hstart.symm] at hfirst
      obtain ⟨rfl, -⟩ := List.cons.inj hfirst
      refine congrArg (v :: ·) (ih htail htail' fun start => ?_)
      have hrest := h start
      rw [startingAt_cons, startingAt_cons] at hrest
      split at hrest
      · exact (List.cons.inj hrest).2
      · exact hrest

theorem StableSort.sorted {listed sorted : List Emitted} (h : StableSort listed sorted) :
    sorted.Pairwise fun v w => v.le w = true :=
  (h.unplacedFirst.and h.ascending).imp le_iff.2

theorem StableSort.unique {listed l l' : List Emitted} (h : StableSort listed l)
    (h' : StableSort listed l') : l = l' :=
  eq_of_startingAt_eq h.sorted h'.sorted fun start =>
    (h.stable start).trans (h'.stable start).symm

end Emitted

/-! ## What is sorted -/

theorem Emitted.mem_ofStarts {f : Feature} {starts : List (Option UInt64)} {v : Emitted} :
    v ∈ ofStarts f starts ↔ v.reference.feature = f ∧
      starts[v.reference.index]? = some v.start := by
  obtain ⟨⟨g, i⟩, start⟩ := v
  simp only [ofStarts, List.mem_mapIdx, mk.injEq, Reference.mk.injEq, List.getElem?_eq_some_iff]
  constructor
  · rintro ⟨j, hj, ⟨rfl, rfl⟩, rfl⟩
    exact ⟨rfl, hj, rfl⟩
  · rintro ⟨rfl, hi, rfl⟩
    exact ⟨i, hi, ⟨rfl, rfl⟩, rfl⟩

namespace Element

variable {ν : Type} [SyntaxNode ν] {e : Element ν}

/-- All features of the element can be read, and `listed` is what they hold: the children under
    each relation as declared, then the values under each property, numbered from 0 and with the
    offsets at which they start. -/
structure Emits (e : Element ν) (listed : List Emitted) : Prop where
  relation : ∀ r ∈ e.entity.relations, e.childrenUnder r = .ok (e.nodesOf r)
  property : ∀ p ∈ e.entity.properties, e.valuesUnder p = .ok (e.valuesOf p)
  listed_eq : listed =
    (e.entity.relations.flatMap fun r => (e.nodesOf r).zipIdx.map fun x =>
      ⟨⟨.relation r, x.2⟩, some (SyntaxNode.interval x.1).start⟩) ++
    e.entity.properties.flatMap fun p => (e.valuesOf p).zipIdx.map fun x =>
      ⟨⟨.property p, x.2⟩, x.1.start?⟩

theorem ofStarts_map {α : Type} (f : Feature) (l : List α) (start : α → Option UInt64) :
    Emitted.ofStarts f (l.map start) = l.zipIdx.map fun x => ⟨⟨f, x.2⟩, start x.1⟩ := by
  rw [Emitted.ofStarts, List.mapIdx_eq_zipIdx_map, List.zipIdx_map, List.map_map]
  rfl

theorem emitted_eq (e : Element ν) : e.emitted =
    (e.entity.relations.flatMap fun r => (e.nodesOf r).zipIdx.map fun x =>
      ⟨⟨.relation r, x.2⟩, some (SyntaxNode.interval x.1).start⟩) ++
    e.entity.properties.flatMap fun p => (e.valuesOf p).zipIdx.map fun x =>
      ⟨⟨.property p, x.2⟩, x.1.start?⟩ := by
  unfold emitted
  simp only [ofStarts_map, ← Value.start?_eq]

/-- A value that is listed is at its index under its feature, and is listed with its start. -/
theorem cases_of_mem_emitted {v : Emitted} (h : v ∈ e.emitted) :
    (∃ r ∈ e.entity.relations, v.reference.feature = .relation r ∧
      (e.nodesOf r)[v.reference.index]?.map (fun n => some (SyntaxNode.interval n).start) =
        some v.start) ∨
    ∃ p ∈ e.entity.properties, v.reference.feature = .property p ∧
      (e.valuesOf p)[v.reference.index]?.map (fun w => w.interval?.map Interval.start) =
        some v.start := by
  rcases List.mem_append.1 h with h | h
  · obtain ⟨r, hr, hv⟩ := List.mem_flatMap.1 h
    rw [Emitted.mem_ofStarts, List.getElem?_map] at hv
    exact .inl ⟨r, hr, hv⟩
  · obtain ⟨p, hp, hv⟩ := List.mem_flatMap.1 h
    rw [Emitted.mem_ofStarts, List.getElem?_map] at hv
    exact .inr ⟨p, hp, hv⟩

theorem nodesOf_eq_of_relationEmission {r : Relation} {l : List Emitted}
    (h : e.relationEmission r = .ok l) : e.childrenUnder r = .ok (e.nodesOf r) := by
  rw [relationEmission_eq] at h
  obtain ⟨ns, hns, -⟩ := exists_of_bind_eq_ok h
  rw [nodesOf, hns]
  rfl

theorem valuesOf_eq_of_propertyEmission {p : Property} {l : List Emitted}
    (h : e.propertyEmission p = .ok l) : e.valuesUnder p = .ok (e.valuesOf p) := by
  rw [propertyEmission_eq] at h
  obtain ⟨vs, hvs, -⟩ := exists_of_bind_eq_ok h
  rw [valuesOf, hvs]
  rfl

theorem emission_eq_ok_iff {listed : List Emitted} :
    e.emission = .ok listed ↔ e.Emits listed := by
  constructor
  · intro h
    obtain ⟨relations, hrelations, hlisted⟩ := exists_of_bind_eq_ok h
    obtain ⟨properties, hproperties, -⟩ := exists_of_bind_eq_ok hlisted
    have hr : ∀ r ∈ e.entity.relations, e.childrenUnder r = .ok (e.nodesOf r) := by
      intro r hr
      obtain ⟨l, hl⟩ := exists_of_mapM_eq_ok hrelations r hr
      exact nodesOf_eq_of_relationEmission hl
    have hp : ∀ p ∈ e.entity.properties, e.valuesUnder p = .ok (e.valuesOf p) := by
      intro p hp
      obtain ⟨l, hl⟩ := exists_of_mapM_eq_ok hproperties p hp
      exact valuesOf_eq_of_propertyEmission hl
    rw [emission_eq_emitted hr hp] at h
    exact ⟨hr, hp, (Except.ok.inj h).symm.trans e.emitted_eq⟩
  · rintro ⟨hr, hp, rfl⟩
    rw [emission_eq_emitted hr hp, emitted_eq]

/-- The order of the values is there exactly if all features can be read, and it is the stable sort
    of what they hold by the offsets at which the values start. -/
theorem valuesOrder_eq_ok_iff (e : Element ν) (refs : List Reference) :
    e.valuesOrder = .ok refs ↔ ∃ listed sorted, e.Emits listed ∧
      Emitted.StableSort listed sorted ∧ refs = sorted.map Emitted.reference := by
  constructor
  · intro h
    obtain ⟨listed, hlisted, h⟩ := exists_of_bind_eq_ok h
    obtain rfl := Except.ok.inj h
    exact ⟨listed, _, emission_eq_ok_iff.1 hlisted, Emitted.stableSort_mergeSort listed, rfl⟩
  · rintro ⟨listed, sorted, hlisted, hsorted, rfl⟩
    rw [valuesOrder, emission_eq_ok_iff.2 hlisted,
      hsorted.unique (Emitted.stableSort_mergeSort listed)]
    rfl

end Element

end SourceOutline
