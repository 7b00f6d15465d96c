import Mathlib.Data.List.Nodup
import SourceOutline.Proofs.Outline.Plain

/-
  Elements that can be read: their positions are known and every declared feature gives what it
  holds (`Readable`).

  Such an element lists its values (`exists_valuesOrder`). If all elements of a metamodel can be
  read, an outline of any depth fails only at a node under the element whose rule has no entity
  (`exists_outlineAt_failsOnly`). `Reaches` says which nodes are under an element.
-/

namespace SourceOutline

/-! ## Computations and their faults -/

/-- All faults of a computation are among `P`. -/
def FailsOnly {α : Type} (P : Fault → Prop) (x : Except Fault α) : Prop :=
  ∀ f, x = .error f → P f

namespace FailsOnly

variable {α β : Type} {P Q : Fault → Prop}

theorem ok (a : α) : FailsOnly P (.ok a) := by
  intro f h
  cases h

theorem of_ok {x : Except Fault α} {a : α} (h : x = .ok a) : FailsOnly P x := h ▸ ok a

theorem mono {x : Except Fault α} (h : FailsOnly P x) (hPQ : ∀ f, P f → Q f) : FailsOnly Q x :=
  fun f hf => hPQ f (h f hf)

theorem bind {x : Except Fault α} {f : α → Except Fault β} (hx : FailsOnly P x)
    (hf : ∀ a, x = .ok a → FailsOnly P (f a)) : FailsOnly P (x >>= f) := by
  cases h : x with
  | error g =>
    intro g' hg
    cases hg
    exact hx g h
  | ok a => exact hf a h

theorem mapM {f : α → Except Fault β} {l : List α} (h : ∀ a ∈ l, FailsOnly P (f a)) :
    FailsOnly P (l.mapM f) := by
  induction l with
  | nil => exact ok []
  | cons a l ih =>
    rw [List.mapM_cons]
    refine bind (h a (by simp)) fun b _ => ?_
    exact bind (ih fun c hc => h c (List.mem_cons_of_mem _ hc)) fun bs _ => ok _

end FailsOnly

theorem mapM_eq_ok {ε α β : Type} {f : α → Except ε β} {g : α → β} {l : List α}
    (h : ∀ a ∈ l, f a = .ok (g a)) : l.mapM f = .ok (l.map g) := by
  induction l with
  | nil => rfl
  | cons a l ih =>
    rw [List.mapM_cons, h a (by simp), ih fun b hb => h b (List.mem_cons_of_mem _ hb)]
    rfl

theorem getElem?_of_mapM_eq_ok {ε α β : Type} {f : α → Except ε β} {l : List α} {bs : List β}
    (h : l.mapM f = .ok bs) {i : Nat} {a : α} (ha : l[i]? = some a) :
    ∃ b, bs[i]? = some b ∧ f a = .ok b := by
  induction l generalizing bs i with
  | nil => simp at ha
  | cons a' l ih =>
    rw [List.mapM_cons] at h
    obtain ⟨b, hb, h⟩ := exists_of_bind_eq_ok h
    obtain ⟨bs', hl, h⟩ := exists_of_bind_eq_ok h
    obtain rfl := Except.ok.inj h
    cases i with
    | zero =>
      obtain rfl := Option.some.inj ha
      exact ⟨b, rfl, hb⟩
    | succ i => exact ih hl ha

theorem exists_of_mapM_eq_ok {ε α β : Type} {f : α → Except ε β} {l : List α} {bs : List β}
    (h : l.mapM f = .ok bs) : ∀ a ∈ l, ∃ b, f a = .ok b := by
  intro a ha
  obtain ⟨i, hi⟩ := List.getElem?_of_mem ha
  obtain ⟨b, -, hb⟩ := getElem?_of_mapM_eq_ok h hi
  exact ⟨b, hb⟩

namespace Element

variable {ν : Type} [SyntaxNode ν] {m : Metamodel} {e : Element ν}

/-! ## What an element holds under a feature -/

/-- The children under a relation, not yet wrapped. -/
def childrenUnder (e : Element ν) (r : Relation) : Except Fault (List ν) :=
  if r.isSingle then do pure (← e.childNode? r).toList else e.childNodes r

/-- The values under a property. -/
def valuesUnder (e : Element ν) (p : Property) : Except Fault (List Value) :=
  if p.isSingle then do pure (← e.singleProperty p).toList else e.multipleProperty p

/-- `n` stands under the relation `r`. -/
def Holds (e : Element ν) (r : Relation) (n : ν) : Prop :=
  ∃ ns, e.childrenUnder r = .ok ns ∧ n ∈ ns

/-- The nodes that declared relations lead to, over any number of steps. -/
inductive Reaches (m : Metamodel) : Element ν → ν → Prop where
  | child {e : Element ν} {r : Relation} {n : ν} :
      r ∈ e.entity.relations → e.Holds r n → Reaches m e n
  | further {e c : Element ν} {r : Relation} {n n' : ν} :
      r ∈ e.entity.relations → e.Holds r n → wrap m n = .ok c → Reaches m c n' → Reaches m e n'

/-- Some node under the relation has a rule without entity, and this is the fault of it. -/
def UnknownUnder (m : Metamodel) (e : Element ν) (r : Relation) (f : Fault) : Prop :=
  ∃ n, e.Holds r n ∧ m.entity? (SyntaxNode.rule n) = none ∧ f = .unknownEntity (SyntaxNode.rule n)

/-- Some node that the element reaches has a rule without entity, and this is the fault of it. -/
def UnknownBelow (m : Metamodel) (e : Element ν) (f : Fault) : Prop :=
  ∃ n, Reaches m e n ∧ m.entity? (SyntaxNode.rule n) = none ∧
    f = .unknownEntity (SyntaxNode.rule n)

theorem wrap_failsOnly {r : Relation} {n : ν} (h : e.Holds r n) :
    FailsOnly (UnknownUnder m e r) (wrap m n) := by
  intro f hf
  unfold wrap at hf
  split at hf
  · cases hf
  · next hnone =>
    cases hf
    exact ⟨n, h, hnone, rfl⟩

theorem UnknownUnder.below {r : Relation} (hr : r ∈ e.entity.relations) {f : Fault}
    (h : UnknownUnder m e r f) : UnknownBelow m e f := by
  obtain ⟨n, hn, hnone, rfl⟩ := h
  exact ⟨n, .child hr hn, hnone, rfl⟩

theorem UnknownBelow.of_child {r : Relation} (hr : r ∈ e.entity.relations) {n : ν}
    (h : e.Holds r n) {c : Element ν} (hc : wrap m n = .ok c) {f : Fault}
    (hf : UnknownBelow m c f) : UnknownBelow m e f := by
  obtain ⟨n', hreach, hnone, rfl⟩ := hf
  exact ⟨n', .further hr h hc hreach, hnone, rfl⟩

/-- The positions and all declared features of an element can be read. -/
structure Readable (e : Element ν) : Prop where
  position : ∀ p : Position, ∃ w, p.get e.node = .ok w
  property : ∀ p ∈ e.entity.properties, ∃ vs, e.valuesUnder p = .ok vs
  relation : ∀ r ∈ e.entity.relations, ∃ ns, e.childrenUnder r = .ok ns

/-- The children under a relation, none if it cannot be read. -/
def nodesOf (e : Element ν) (r : Relation) : List ν := (e.childrenUnder r).toOption.getD []

/-- The values under a property, none if it cannot be read. -/
def valuesOf (e : Element ν) (p : Property) : List Value := (e.valuesUnder p).toOption.getD []

theorem Readable.childrenUnder_eq (h : e.Readable) {r : Relation} (hr : r ∈ e.entity.relations) :
    e.childrenUnder r = .ok (e.nodesOf r) := by
  obtain ⟨ns, hns⟩ := h.relation r hr
  rw [nodesOf, hns]
  rfl

theorem Readable.valuesUnder_eq (h : e.Readable) {p : Property} (hp : p ∈ e.entity.properties) :
    e.valuesUnder p = .ok (e.valuesOf p) := by
  obtain ⟨vs, hvs⟩ := h.property p hp
  rw [valuesOf, hvs]
  rfl

/-! ## The order of the values -/

/-- All values of an element with their offsets, relations first, each feature in its order. -/
def emitted (e : Element ν) : List Emitted :=
  (e.entity.relations.flatMap fun r =>
    Emitted.ofStarts (.relation r)
      ((e.nodesOf r).map fun n => some (SyntaxNode.interval n).start)) ++
  e.entity.properties.flatMap fun p =>
    Emitted.ofStarts (.property p) ((e.valuesOf p).map fun v => v.interval?.map Interval.start)

theorem relationEmission_eq (e : Element ν) (r : Relation) :
    e.relationEmission r = (do
      pure (Emitted.ofStarts (.relation r)
        ((← e.childrenUnder r).map fun n => some (SyntaxNode.interval n).start))) := by
  unfold relationEmission childrenUnder
  cases r.isSingle <;> simp

theorem propertyEmission_eq (e : Element ν) (p : Property) :
    e.propertyEmission p = (do
      pure (Emitted.ofStarts (.property p)
        ((← e.valuesUnder p).map fun v => v.interval?.map Interval.start))) := by
  unfold propertyEmission valuesUnder
  cases p.isSingle <;> simp

/-- What is listed of an element whose features can be read. -/
theorem emission_eq_emitted
    (hrelations : ∀ r ∈ e.entity.relations, e.childrenUnder r = .ok (e.nodesOf r))
    (hproperties : ∀ p ∈ e.entity.properties, e.valuesUnder p = .ok (e.valuesOf p)) :
    e.emission = .ok e.emitted := by
  have hr : e.entity.relations.mapM e.relationEmission =
      .ok (e.entity.relations.map fun r => Emitted.ofStarts (.relation r)
        ((e.nodesOf r).map fun n => some (SyntaxNode.interval n).start)) := by
    refine mapM_eq_ok fun r hr => ?_
    rw [relationEmission_eq, hrelations r hr]
    rfl
  have hp : e.entity.properties.mapM e.propertyEmission =
      .ok (e.entity.properties.map fun p => Emitted.ofStarts (.property p)
        ((e.valuesOf p).map fun v => v.interval?.map Interval.start)) := by
    refine mapM_eq_ok fun p hp => ?_
    rw [propertyEmission_eq, hproperties p hp]
    rfl
  unfold emission emitted
  rw [hr, hp, List.flatMap_def, List.flatMap_def]
  rfl

theorem Readable.emission_eq (h : e.Readable) : e.emission = .ok e.emitted :=
  emission_eq_emitted (fun _ hr => h.childrenUnder_eq hr) fun _ hp => h.valuesUnder_eq hp

theorem Readable.valuesOrder_eq (h : e.Readable) :
    e.valuesOrder = .ok ((e.emitted.mergeSort Emitted.le).map Emitted.reference) := by
  unfold valuesOrder
  rw [h.emission_eq]
  rfl

/-- References to all values of an element, relations first, each feature in its order. -/
def references (e : Element ν) : List Reference :=
  (e.entity.relations.flatMap fun r =>
    (List.range (e.nodesOf r).length).map fun i => ⟨.relation r, i⟩) ++
  e.entity.properties.flatMap fun p =>
    (List.range (e.valuesOf p).length).map fun i => ⟨.property p, i⟩

theorem map_reference_ofStarts (f : Feature) (starts : List (Option UInt64)) :
    (Emitted.ofStarts f starts).map Emitted.reference =
      (List.range starts.length).map fun i => ⟨f, i⟩ := by
  refine List.ext_getElem (by simp [Emitted.ofStarts]) ?_
  intro i h₁ h₂
  simp [Emitted.ofStarts]

theorem map_reference_emitted (e : Element ν) :
    e.emitted.map Emitted.reference = e.references := by
  simp only [emitted, references, List.map_append, List.map_flatMap, map_reference_ofStarts,
    List.length_map]

/-- The values of an element are listed each once. -/
theorem Readable.exists_valuesOrder (h : e.Readable) :
    ∃ refs, e.valuesOrder = .ok refs ∧ refs.Perm e.references := by
  refine ⟨_, h.valuesOrder_eq, ?_⟩
  rw [← map_reference_emitted]
  exact (List.mergeSort_perm _ _).map _

theorem mem_references_relation {r : Relation} {i : Nat} :
    ⟨.relation r, i⟩ ∈ e.references ↔ r ∈ e.entity.relations ∧ i < (e.nodesOf r).length := by
  simp only [references, List.mem_append, List.mem_flatMap, List.mem_map, List.mem_range,
    Reference.mk.injEq, Feature.relation.injEq, reduceCtorEq, false_and, and_false, exists_false,
    or_false]
  constructor
  · rintro ⟨r', hr, i', hi, rfl, rfl⟩
    exact ⟨hr, hi⟩
  · rintro ⟨hr, hi⟩
    exact ⟨r, hr, i, hi, rfl, rfl⟩

theorem mem_references_property {p : Property} {i : Nat} :
    ⟨.property p, i⟩ ∈ e.references ↔ p ∈ e.entity.properties ∧ i < (e.valuesOf p).length := by
  simp only [references, List.mem_append, List.mem_flatMap, List.mem_map, List.mem_range,
    Reference.mk.injEq, Feature.property.injEq, reduceCtorEq, false_and, and_false, exists_false,
    false_or]
  constructor
  · rintro ⟨p', hp, i', hi, rfl, rfl⟩
    exact ⟨hp, hi⟩
  · rintro ⟨hp, hi⟩
    exact ⟨p, hp, i, hi, rfl, rfl⟩

theorem features_nodup {α : Type} {l : List α} (hl : l.Nodup)
    {f : α → Feature} (hf : Function.Injective f) (size : α → Nat) :
    (l.flatMap fun a => (List.range (size a)).map fun i => (⟨f a, i⟩ : Reference)).Nodup := by
  refine List.nodup_flatMap.2 ⟨fun a _ => ?_, hl.imp ?_⟩
  · exact List.nodup_range.map fun i j h => (Reference.mk.inj h).2
  · intro a b hab ref ha hb
    obtain ⟨i, -, rfl⟩ := List.mem_map.1 ha
    obtain ⟨j, -, heq⟩ := List.mem_map.1 hb
    exact hab (hf (Reference.mk.inj heq).1.symm)

theorem references_nodup (hr : e.entity.relations.Nodup) (hp : e.entity.properties.Nodup) :
    e.references.Nodup := by
  refine List.nodup_append.2 ⟨features_nodup hr (fun _ _ => Feature.relation.inj) _,
    features_nodup hp (fun _ _ => Feature.property.inj) _, ?_⟩
  intro a ha b hb hab
  obtain ⟨r, -, ha⟩ := List.mem_flatMap.1 ha
  obtain ⟨p, -, hb⟩ := List.mem_flatMap.1 hb
  obtain ⟨i, -, rfl⟩ := List.mem_map.1 ha
  obtain ⟨j, -, rfl⟩ := List.mem_map.1 hb
  cases hab

/-! ## What references lead to -/

/-- A reference to a property leads to what stands at its index. -/
theorem valueAt_property (m : Metamodel) (e : Element ν) (p : Property) (i : Nat) :
    e.valueAt m ⟨.property p, i⟩ = (do pure ((← e.valuesUnder p)[i]?.map .value)) := by
  simp only [valueAt, valueAtBy, valuesUnder]
  split
  · cases e.singleProperty p with
    | error f => rfl
    | ok v => cases v <;> cases i <;> rfl
  · rfl

/-- A reference to a relation leads to the child at its index, but all children are wrapped
    before. -/
theorem valueAt_relation (m : Metamodel) (e : Element ν) (r : Relation) (i : Nat) :
    e.valueAt m ⟨.relation r, i⟩ =
      (do pure ((← (← e.childrenUnder r).mapM (wrap m))[i]?.map .element)) := by
  simp only [valueAt, valueAtBy, singleRelationBy, multipleRelationBy, childrenUnder]
  split
  · cases e.childNode? r with
    | error f => rfl
    | ok n =>
      cases n with
      | none => cases i <;> rfl
      | some n =>
        cases hw : wrap m n <;> cases i <;> simp [hw, bind, Except.bind, pure, Except.pure]
  · cases e.childNodes r <;> rfl

theorem Readable.valueAt_property (h : e.Readable) {p : Property} (hp : p ∈ e.entity.properties)
    (i : Nat) : e.valueAt m ⟨.property p, i⟩ = .ok ((e.valuesOf p)[i]?.map .value) := by
  rw [Element.valueAt_property, h.valuesUnder_eq hp]
  rfl

theorem Readable.valueAt_relation (h : e.Readable) {r : Relation} (hr : r ∈ e.entity.relations)
    (i : Nat) : e.valueAt m ⟨.relation r, i⟩ =
      (do pure ((← (e.nodesOf r).mapM (wrap m))[i]?.map .element)) := by
  rw [Element.valueAt_relation, h.childrenUnder_eq hr]
  rfl

theorem Readable.holds_iff (h : e.Readable) {r : Relation} (hr : r ∈ e.entity.relations) {n : ν} :
    e.Holds r n ↔ n ∈ e.nodesOf r := by
  simp [Holds, h.childrenUnder_eq hr]

theorem Readable.valueAt_failsOnly (h : e.Readable) {ref : Reference}
    (href : ref ∈ e.references) : FailsOnly (UnknownBelow m e) (e.valueAt m ref) := by
  obtain ⟨p | r, i⟩ := ref
  · rw [h.valueAt_property (mem_references_property.1 href).1]
    exact .ok _
  · have hr := (mem_references_relation.1 href).1
    rw [h.valueAt_relation hr]
    refine .bind (.mapM fun n hn => ?_) fun cs _ => .ok _
    exact (wrap_failsOnly ((h.holds_iff hr).2 hn)).mono fun f hf => hf.below hr

/-- A reference that leads to a child is one to a node under a relation. -/
theorem Readable.exists_holds_of_valueAt (h : e.Readable) {ref : Reference}
    (href : ref ∈ e.references) {c : Element ν} (hc : e.valueAt m ref = .ok (some (.element c))) :
    ∃ r ∈ e.entity.relations, ∃ n, e.Holds r n ∧ wrap m n = .ok c := by
  obtain ⟨p | r, i⟩ := ref
  · rw [h.valueAt_property (mem_references_property.1 href).1] at hc
    cases hv : (e.valuesOf p)[i]? <;> simp [hv] at hc
  · have hr := (mem_references_relation.1 href).1
    rw [h.valueAt_relation hr] at hc
    cases hcs : (e.nodesOf r).mapM (wrap m) with
    | error f => rw [hcs] at hc; cases hc
    | ok cs =>
      rw [hcs] at hc
      obtain ⟨c', hc', heq⟩ := Option.map_eq_some_iff.1 (Except.ok.inj hc)
      cases heq
      obtain ⟨n, hn, hw⟩ := mem_of_mapM_eq_ok hcs (List.mem_of_getElem? hc')
      exact ⟨r, hr, n, (h.holds_iff hr).2 hn, hw⟩

/-! ## Single queries -/

theorem Readable.exists_singleProperty (h : e.Readable) {p : Property}
    (hp : p ∈ e.entity.properties) (hm : p.multiplicity = .single) :
    ∃ v, e.singleProperty p = .ok v := by
  obtain ⟨vs, hvs⟩ := h.property p hp
  unfold valuesUnder at hvs
  rw [Property.isSingle, hm] at hvs
  cases hv : e.singleProperty p with
  | error f => rw [hv] at hvs; cases hvs
  | ok v => exact ⟨v, rfl⟩

theorem Readable.exists_multipleProperty (h : e.Readable) {p : Property}
    (hp : p ∈ e.entity.properties) (hm : p.multiplicity = .multiple) :
    ∃ vs, e.multipleProperty p = .ok vs := by
  obtain ⟨vs, hvs⟩ := h.property p hp
  unfold valuesUnder at hvs
  rw [Property.isSingle, hm] at hvs
  exact ⟨vs, hvs⟩

theorem Readable.singleRelation_failsOnly (h : e.Readable) {r : Relation}
    (hr : r ∈ e.entity.relations) (hm : r.multiplicity = .single) :
    FailsOnly (UnknownUnder m e r) (e.singleRelation m r) := by
  obtain ⟨ns, hns⟩ := h.relation r hr
  have hunder := hns
  unfold childrenUnder at hns
  rw [Relation.isSingle, hm] at hns
  unfold singleRelation singleRelationBy
  cases hn : e.childNode? r with
  | error f => rw [hn] at hns; cases hns
  | ok n =>
    rw [hn] at hns
    cases n with
    | none => exact .ok _
    | some n =>
      have hholds : e.Holds r n := ⟨ns, hunder, by simp [← Except.ok.inj hns]⟩
      show FailsOnly _ (wrap m n >>= fun c => pure (some c))
      exact .bind (wrap_failsOnly hholds) fun _ _ => .ok _

theorem Readable.multipleRelation_failsOnly (h : e.Readable) {r : Relation}
    (hr : r ∈ e.entity.relations) (hm : r.multiplicity = .multiple) :
    FailsOnly (UnknownUnder m e r) (e.multipleRelation m r) := by
  obtain ⟨ns, hns⟩ := h.relation r hr
  have hunder := hns
  unfold childrenUnder at hns
  rw [Relation.isSingle, hm] at hns
  unfold multipleRelation multipleRelationBy
  refine .bind (.of_ok hns) fun ns' hns' => .mapM fun n hn => ?_
  obtain rfl := Except.ok.inj (hns.symm.trans hns')
  exact wrap_failsOnly ⟨ns, hunder, hn⟩

/-! ## Outlines -/

theorem ofName?_name (p : Position) : Position.ofName? p.name = some p := by
  cases p <;> rfl

theorem property?_name (p : Position) (n : ν) : Position.property? n p.name =
    (p.get n).map fun w => some (.int (Position.signed w)) := by
  unfold Position.property?
  rw [ofName?_name]

theorem property?_position {p : Position} {n : ν} {w : UInt64} (h : p.get n = .ok w) :
    Position.property? n p.name = .ok (some (.int (Position.signed w))) := by
  rw [property?_name, h]
  rfl

theorem propertyNamed_position {p : Position} {w : UInt64} (h : p.get e.node = .ok w) :
    e.propertyNamed p.name = .ok (some (.int (Position.signed w))) := by
  unfold propertyNamed
  rw [property?_position h]
  rfl

theorem span_eq {sl sc el ec : UInt64} (hsl : Position.startLine.get e.node = .ok sl)
    (hsc : Position.startColumn.get e.node = .ok sc) (hel : Position.endLine.get e.node = .ok el)
    (hec : Position.endColumn.get e.node = .ok ec) :
    e.span = .ok (some ⟨Position.signed sl, Position.signed sc, Position.signed el,
      Position.signed ec⟩) := by
  unfold span
  dsimp only
  rw [propertyNamed_position hsl, propertyNamed_position hsc, propertyNamed_position hel,
    propertyNamed_position hec]
  rfl

theorem Readable.exists_span (h : e.Readable) : ∃ s, e.span = .ok s := by
  obtain ⟨sl, hsl⟩ := h.position .startLine
  obtain ⟨sc, hsc⟩ := h.position .startColumn
  obtain ⟨el, hel⟩ := h.position .endLine
  obtain ⟨ec, hec⟩ := h.position .endColumn
  exact ⟨_, span_eq hsl hsc hel hec⟩

theorem plainValues_failsOnly {P : Fault → Prop} {descend : Element ν → Except Fault OutlineContent}
    {refs : List Reference} (hv : ∀ ref ∈ refs, FailsOnly P (e.valueAt m ref))
    (hd : ∀ ref ∈ refs, ∀ c, e.valueAt m ref = .ok (some (.element c)) → FailsOnly P (descend c)) :
    FailsOnly P (e.plainValues m descend refs) := by
  induction refs with
  | nil => exact .ok []
  | cons ref refs ih =>
    have hrest : FailsOnly P (e.plainValues m descend refs) :=
      ih (fun ref' h => hv ref' (List.mem_cons_of_mem _ h))
        fun ref' h => hd ref' (List.mem_cons_of_mem _ h)
    unfold plainValues
    refine .bind (hv ref (by simp)) fun r hr => ?_
    cases r with
    | none => exact hrest
    | some r =>
      refine .bind ?_ fun content _ => .bind hrest fun rest _ => .ok _
      cases r with
      | value v => exact .ok _
      | element c => exact hd ref (by simp) c hr

/-- The faults of an outline of an element that can be read are those of its children, or a child
    has no entity. -/
theorem Readable.outlineWith_failsOnly (h : e.Readable)
    {descend : Element ν → Except Fault OutlineContent}
    (hd : ∀ c, Child m e c → FailsOnly (UnknownBelow m c) (descend c)) :
    FailsOnly (UnknownBelow m e) (e.outlineWith m descend) := by
  obtain ⟨span, hspan⟩ := h.exists_span
  obtain ⟨refs, hrefs, hperm⟩ := h.exists_valuesOrder
  refine .bind (.of_ok hspan) fun _ _ => .bind (.of_ok hrefs) fun refs' hrefs' => ?_
  obtain rfl := Except.ok.inj (hrefs.symm.trans hrefs')
  refine .bind (plainValues_failsOnly ?_ ?_) fun _ _ => .ok _
  · intro ref href
    exact h.valueAt_failsOnly (hperm.mem_iff.1 href)
  · intro ref href c hc
    obtain ⟨r, hr, n, hn, hw⟩ := h.exists_holds_of_valueAt (hperm.mem_iff.1 href) hc
    exact (hd c ⟨refs, hrefs, ref, href, hc⟩).mono fun f hf => hf.of_child hr hn hw

/-- If all elements can be read, an outline that comes to an end fails only where a node below has
    no entity. -/
theorem exists_outlineAt_failsOnly (hread : ∀ n : ν, ∀ c, wrap m n = .ok c → c.Readable)
    (he : e.Readable) {limit : Option Nat} (hend : limit = none → FiniteDescent m e)
    (depth : Nat) : ∃ r, (e.outlineAt m limit depth).run = some r ∧
      FailsOnly (UnknownBelow m e) r := by
  refine descent_induction (motive := fun depth e => e.Readable → ∃ r,
    (e.outlineAt m limit depth).run = some r ∧ FailsOnly (UnknownBelow m e) r) ?_ hend depth he
  intro depth e ih he
  have hcontent : ∀ c, Child m e c → ∃ r, (c.contentAt m limit depth).run = some r ∧
      FailsOnly (UnknownBelow m c) r := by
    intro c hc
    by_cases hcut : limit.any (· ≤ depth)
    · exact ⟨_, run_contentAt_of_cut hcut, .ok _⟩
    · obtain ⟨r, hr, hfails⟩ := ih c hc hcut (hread _ c hc.wrap_eq)
      refine ⟨_, by rw [run_contentAt_of_not_cut hcut, hr, Option.map_some], ?_⟩
      exact .bind hfails fun _ _ => .ok _
  have hsettled : ∀ c, Child m e c →
      (c.contentAt m limit depth).run = some (settle (c.contentAt m limit depth)) := by
    intro c hc
    obtain ⟨r, hr, -⟩ := hcontent c hc
    rw [hr, gives_settle _ r hr]
  refine ⟨_, run_outlineAt_eq hsettled, he.outlineWith_failsOnly fun c hc => ?_⟩
  obtain ⟨r, hr, hfails⟩ := hcontent c hc
  exact gives_settle _ r hr ▸ hfails

end Element

end SourceOutline
