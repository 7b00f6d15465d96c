import Mathlib.Data.List.Induction
import SourceOutline.Proofs.Grammar.ChildClaims

/-
  What the slot table and the metamodel derived from some node types answer, said by the node types
  themselves.

  A later node type of a kind adds its slots to those that are there, and replaces the entity. So
  a slot comes from the last node type of the kind that has one under the name (`field?_derive`,
  `accessor?_derive`), and the entity from the last node type of the kind (`entity?_derive`).
-/

namespace SourceOutline

/-! ## Looking up in a slot table -/

namespace SlotTable

theorem field?_eq_slotsOf (t : SlotTable) (rule name : String) :
    t.field? rule name = (Keyed.find? Prod.fst name (t.slotsOf rule).fields).map Prod.snd := by
  unfold field? slotsOf
  cases Keyed.find? RuleSlots.rule rule t.rules with
  | none => rfl
  | some slots => cases h : Keyed.find? Prod.fst name slots.fields <;> simp [h]

theorem accessor?_eq_slotsOf (t : SlotTable) (rule name : String) :
    t.accessor? rule name =
      (Keyed.find? Prod.fst name (t.slotsOf rule).accessors).map Prod.snd := by
  unfold accessor? slotsOf
  cases Keyed.find? RuleSlots.rule rule t.rules with
  | none => rfl
  | some slots => cases h : Keyed.find? Prod.fst name slots.accessors <;> simp [h]

theorem rule_slotsOf (t : SlotTable) (rule : String) : (t.slotsOf rule).rule = rule := by
  unfold slotsOf
  cases h : Keyed.find? RuleSlots.rule rule t.rules with
  | none => rfl
  | some slots => exact Keyed.key_of_find? h

theorem slotsOf_put (t : SlotTable) (slots : RuleSlots) (rule : String) :
    slotsOf ⟨Keyed.put RuleSlots.rule slots t.rules⟩ rule =
      if slots.rule = rule then slots else t.slotsOf rule := by
  unfold slotsOf
  rw [Keyed.find?_put]
  split <;> rfl

theorem slotsOf_insertField (t : SlotTable) (rule name : String) (slot : Slot) (rule' : String) :
    (t.insertField rule name slot).slotsOf rule' =
      if rule = rule' then
        { t.slotsOf rule with fields := Keyed.put Prod.fst (name, slot) (t.slotsOf rule).fields }
      else t.slotsOf rule' := by
  unfold insertField
  rw [slotsOf_put]
  simp only [rule_slotsOf]

theorem slotsOf_insertAccessor (t : SlotTable) (rule name : String) (slot : Slot)
    (rule' : String) :
    (t.insertAccessor rule name slot).slotsOf rule' =
      if rule = rule' then
        { t.slotsOf rule with
          accessors := Keyed.put Prod.fst (name, slot) (t.slotsOf rule).accessors }
      else t.slotsOf rule' := by
  unfold insertAccessor
  rw [slotsOf_put]
  simp only [rule_slotsOf]

theorem field?_insertField (t : SlotTable) (rule name : String) (slot : Slot)
    (rule' name' : String) :
    (t.insertField rule name slot).field? rule' name' =
      if rule = rule' ∧ name = name' then some slot else t.field? rule' name' := by
  rw [field?_eq_slotsOf, field?_eq_slotsOf, slotsOf_insertField]
  by_cases hr : rule = rule'
  · subst hr
    by_cases hn : name = name' <;> simp [Keyed.find?_put, hn]
  · simp [hr]

theorem accessor?_insertAccessor (t : SlotTable) (rule name : String) (slot : Slot)
    (rule' name' : String) :
    (t.insertAccessor rule name slot).accessor? rule' name' =
      if rule = rule' ∧ name = name' then some slot else t.accessor? rule' name' := by
  rw [accessor?_eq_slotsOf, accessor?_eq_slotsOf, slotsOf_insertAccessor]
  by_cases hr : rule = rule'
  · subst hr
    by_cases hn : name = name' <;> simp [Keyed.find?_put, hn]
  · simp [hr]

theorem accessor?_insertField (t : SlotTable) (rule name : String) (slot : Slot)
    (rule' name' : String) :
    (t.insertField rule name slot).accessor? rule' name' = t.accessor? rule' name' := by
  rw [accessor?_eq_slotsOf, accessor?_eq_slotsOf, slotsOf_insertField]
  split
  · next hr => rw [← hr]
  · rfl

theorem field?_insertAccessor (t : SlotTable) (rule name : String) (slot : Slot)
    (rule' name' : String) :
    (t.insertAccessor rule name slot).field? rule' name' = t.field? rule' name' := by
  rw [field?_eq_slotsOf, field?_eq_slotsOf, slotsOf_insertAccessor]
  split
  · next hr => rw [← hr]
  · rfl

end SlotTable

namespace Grammar

/-! ## Slots added for one node type -/

/-- The slot under a name in a list of slots. -/
def slotUnder (name : String) (slots : List (String × Slot)) : Option Slot :=
  (Keyed.find? Prod.fst name slots).map Prod.snd

theorem slotUnder_cons (name : String) (f : String × Slot) (slots : List (String × Slot)) :
    slotUnder name (f :: slots) = if f.1 = name then some f.2 else slotUnder name slots := by
  unfold slotUnder
  rw [Keyed.find?_cons]
  split <;> rfl

theorem slotUnder_eq_none_iff {name : String} {slots : List (String × Slot)} :
    slotUnder name slots = none ↔ name ∉ slots.map Prod.fst := by
  rw [slotUnder, Option.map_eq_none_iff, Keyed.find?_eq_none_iff]

theorem mem_of_slotUnder {name : String} {slots : List (String × Slot)} {slot : Slot}
    (h : slotUnder name slots = some slot) : (name, slot) ∈ slots := by
  obtain ⟨f, hf, rfl⟩ := Option.map_eq_some_iff.1 h
  have hname := Keyed.key_of_find? hf
  subst hname
  exact Keyed.mem_of_find? hf

theorem slotUnder_of_mem {name : String} {slots : List (String × Slot)} {slot : Slot}
    (hn : (slots.map Prod.fst).Nodup) (h : (name, slot) ∈ slots) :
    slotUnder name slots = some slot := by
  have := Keyed.find?_of_mem hn h
  simp only [slotUnder, this, Option.map_some]

/-- Slots with names of their own, inserted one after the other, are what a look-up finds first.
    It is the same for fields and for accessors: `get` looks up what `ins` inserts. -/
theorem lookup_foldl_insert {get : SlotTable → String → String → Option Slot}
    {ins : SlotTable → String → String → Slot → SlotTable}
    (hget : ∀ t rule name slot rule' name', get (ins t rule name slot) rule' name' =
      if rule = rule' ∧ name = name' then some slot else get t rule' name')
    (rule : String) {slots : List (String × Slot)} (hn : (slots.map Prod.fst).Nodup)
    (t : SlotTable) (rule' name : String) :
    get (slots.foldl (fun tb f => ins tb rule f.1 f.2) t) rule' name =
      if rule = rule' then (slotUnder name slots).or (get t rule' name)
      else get t rule' name := by
  induction slots generalizing t with
  | nil => simp [slotUnder]
  | cons f slots ih =>
    rw [List.map_cons, List.nodup_cons] at hn
    rw [List.foldl_cons, ih hn.2, hget, slotUnder_cons]
    by_cases hr : rule = rule'
    · by_cases hf : f.1 = name
      · -- the name is not inserted again
        have hnone : slotUnder name slots = none := slotUnder_eq_none_iff.2 (hf ▸ hn.1)
        simp [hr, hf, hnone]
      · simp [hr, hf]
    · simp [hr]

/-- The stored fields of a node type. -/
def fieldSlots (t : NodeType) : List (String × Slot) :=
  t.fields.toList.map fun f => (f.1, fieldSlot f.2)

theorem map_fst_fieldSlots (t : NodeType) :
    (fieldSlots t).map Prod.fst = t.fields.toList.map Prod.fst := by
  simp [fieldSlots]

theorem fieldSlots_names_nodup (t : NodeType) : ((fieldSlots t).map Prod.fst).Nodup := by
  rw [map_fst_fieldSlots]
  exact t.fields.nodup_keys

theorem children_eq_none_of_isLeaf {t : NodeType} (h : isLeaf t = true) : t.children = none := by
  simp only [isLeaf, Bool.and_eq_true, Option.isNone_iff_eq_none] at h
  exact h.2

theorem fields_eq_nil_of_isLeaf {t : NodeType} (h : isLeaf t = true) : t.fields.toList = [] := by
  simp only [isLeaf, Bool.and_eq_true, NameMap.isEmpty, List.isEmpty_iff] at h
  exact h.1

theorem accessorSlots_of_isLeaf (s : Supertypes) {t : NodeType} (h : isLeaf t = true) :
    accessorSlots s t = [(textProperty, .text)] := by
  simp [accessorSlots, h, childClaims_eq_nil (children_eq_none_of_isLeaf h)]

theorem accessorSlots_of_not_isLeaf (s : Supertypes) {t : NodeType} (h : isLeaf t = false) :
    accessorSlots s t =
      (childClaims s t).map fun c => (c.name, .children c.kinds (childrenMultiple t)) := by
  simp [accessorSlots, h]

theorem accessorSlots_names_nodup (s : Supertypes) (t : NodeType) :
    ((accessorSlots s t).map Prod.fst).Nodup := by
  cases h : isLeaf t with
  | true => simp [accessorSlots_of_isLeaf s h]
  | false =>
    rw [accessorSlots_of_not_isLeaf s h, List.map_map]
    exact childClaims_names_nodup s t

theorem addSlots_eq (s : Supertypes) (table : SlotTable) (t : NodeType) :
    addSlots s table t = (accessorSlots s t).foldl (fun tb a => tb.insertAccessor t.kind a.1 a.2)
      ((fieldSlots t).foldl (fun tb f => tb.insertField t.kind f.1 f.2) table) := by
  simp only [addSlots, fieldSlots, List.foldl_map]

/-- A look-up that no insertion of a list touches. -/
theorem lookup_foldl_frame {α β : Type} (get : SlotTable → β) {step : SlotTable → α → SlotTable}
    (h : ∀ t a, get (step t a) = get t) (l : List α) (t : SlotTable) :
    get (l.foldl step t) = get t := by
  induction l generalizing t with
  | nil => rfl
  | cons a l ih => rw [List.foldl_cons, ih, h]

theorem field?_addSlots (s : Supertypes) (table : SlotTable) (t : NodeType) (rule name : String) :
    (addSlots s table t).field? rule name =
      if t.kind = rule then (slotUnder name (fieldSlots t)).or (table.field? rule name)
      else table.field? rule name := by
  rw [addSlots_eq, lookup_foldl_frame (fun tb => tb.field? rule name) fun tb (a : String × Slot) =>
    tb.field?_insertAccessor t.kind a.1 a.2 rule name]
  exact lookup_foldl_insert SlotTable.field?_insertField t.kind (fieldSlots_names_nodup t)
    table rule name

theorem accessor?_addSlots (s : Supertypes) (table : SlotTable) (t : NodeType)
    (rule name : String) :
    (addSlots s table t).accessor? rule name =
      if t.kind = rule then (slotUnder name (accessorSlots s t)).or (table.accessor? rule name)
      else table.accessor? rule name := by
  rw [addSlots_eq, lookup_foldl_insert SlotTable.accessor?_insertAccessor t.kind
    (accessorSlots_names_nodup s t), lookup_foldl_frame (fun tb => tb.accessor? rule name)
      fun tb (f : String × Slot) => tb.accessor?_insertField t.kind f.1 f.2 rule name]

/-! ## The last node type of a kind -/

/-- What the last item of a list that has something gives. -/
def lastSome {α β : Type} (f : α → Option β) (l : List α) : Option β := l.reverse.findSome? f

theorem lastSome_append {α β : Type} (f : α → Option β) (a b : List α) :
    lastSome f (a ++ b) = (lastSome f b).or (lastSome f a) := by
  unfold lastSome
  rw [List.reverse_append, List.findSome?_append]

theorem lastSome_concat {α β : Type} (f : α → Option β) (l : List α) (a : α) :
    lastSome f (l ++ [a]) = (f a).or (lastSome f l) := by
  rw [lastSome_append]
  cases h : f a <;> simp [lastSome, h]

theorem lastSome_eq_none_iff {α β : Type} {f : α → Option β} {l : List α} :
    lastSome f l = none ↔ ∀ a ∈ l, f a = none := by
  simp [lastSome]

theorem lastSome_eq_some_iff {α β : Type} {f : α → Option β} {l : List α} {b : β} :
    lastSome f l = some b ↔
      ∃ before a after, l = before ++ a :: after ∧ f a = some b ∧ ∀ x ∈ after, f x = none := by
  unfold lastSome
  rw [List.findSome?_eq_some_iff]
  constructor
  · rintro ⟨l₁, a, l₂, hl, ha, hnone⟩
    refine ⟨l₂.reverse, a, l₁.reverse, ?_, ha, fun x hx => hnone x (List.mem_reverse.1 hx)⟩
    rw [← List.reverse_reverse l, hl]
    simp
  · rintro ⟨before, a, after, rfl, ha, hnone⟩
    refine ⟨after.reverse, a, before.reverse, by simp, ha, ?_⟩
    exact fun x hx => hnone x (List.mem_reverse.1 hx)

theorem exists_of_lastSome {α β : Type} {f : α → Option β} {l : List α} {b : β}
    (h : lastSome f l = some b) : ∃ a ∈ l, f a = some b := by
  obtain ⟨a, ha, hb⟩ := List.exists_of_findSome?_eq_some h
  exact ⟨a, List.mem_reverse.1 ha, hb⟩

/-- The slot under a name of the last node type of a kind that has one. -/
def latest (slots : NodeType → List (String × Slot)) (rule name : String)
    (types : List NodeType) : Option Slot :=
  lastSome (fun t => if t.kind = rule then slotUnder name (slots t) else none) types

theorem latest_concat (slots : NodeType → List (String × Slot)) (rule name : String)
    (types : List NodeType) (t : NodeType) :
    latest slots rule name (types ++ [t]) =
      if t.kind = rule then (slotUnder name (slots t)).or (latest slots rule name types)
      else latest slots rule name types := by
  unfold latest
  rw [lastSome_concat]
  split <;> rfl

theorem lookup_foldl_addSlots {get : SlotTable → String → String → Option Slot}
    {slots : NodeType → List (String × Slot)} (s : Supertypes)
    (hget : ∀ table t rule name, get (addSlots s table t) rule name =
      if t.kind = rule then (slotUnder name (slots t)).or (get table rule name)
      else get table rule name)
    (hempty : ∀ rule name, get ∅ rule name = none) (types : List NodeType)
    (rule name : String) :
    get (types.foldl (addSlots s) ∅) rule name = latest slots rule name types := by
  induction types using List.reverseRecOn with
  | nil => exact hempty rule name
  | append_singleton types t ih => rw [List.foldl_concat, hget, ih, latest_concat]

/-- The node types that describe nodes, of a whole list. -/
def describedOf (types : List NodeType) : List NodeType :=
  described (Supertypes.ofTypes types) types

theorem field?_derive (types : List NodeType) (rule name : String) :
    (derive types).2.field? rule name = latest fieldSlots rule name (describedOf types) :=
  lookup_foldl_addSlots (Supertypes.ofTypes types) (field?_addSlots _) (fun _ _ => rfl) _ rule name

theorem accessor?_derive (types : List NodeType) (rule name : String) :
    (derive types).2.accessor? rule name =
      latest (accessorSlots (Supertypes.ofTypes types)) rule name (describedOf types) :=
  lookup_foldl_addSlots (Supertypes.ofTypes types) (accessor?_addSlots _) (fun _ _ => rfl) _ rule
    name

theorem entity?_ofEntities_map (f : NodeType → Entity) (hf : ∀ t, (f t).name = t.kind)
    (types : List NodeType) (rule : String) :
    (Metamodel.ofEntities (types.map f)).entity? rule =
      lastSome (fun t => if t.kind = rule then some (f t) else none) types := by
  unfold Metamodel.ofEntities
  induction types using List.reverseRecOn with
  | nil => rfl
  | append_singleton types t ih =>
    rw [List.map_append, List.map_singleton, List.foldl_concat, Metamodel.entity?_register, ih,
      lastSome_concat, hf]
    split <;> rfl

theorem entity?_derive (types : List NodeType) (rule : String) :
    (derive types).1.entity? rule =
      lastSome
        (fun t => if t.kind = rule then some (entityOf (Supertypes.ofTypes types) t) else none)
        (describedOf types) :=
  entity?_ofEntities_map _ (fun _ => rfl) _ rule

/-- `t` is the last node type of its kind that describes nodes, and `before` stands in front
    of it. -/
def LastOfKind (types before : List NodeType) (t : NodeType) : Prop :=
  ∃ after, describedOf types = before ++ t :: after ∧ ∀ u ∈ after, u.kind ≠ t.kind

theorem exists_lastOfKind {types : List NodeType} {t : NodeType} (ht : t ∈ describedOf types) :
    ∃ before u, LastOfKind types before u ∧ u.kind = t.kind := by
  unfold LastOfKind
  generalize describedOf types = l at ht
  induction l using List.reverseRecOn with
  | nil => simp at ht
  | append_singleton l a ih =>
    by_cases ha : a.kind = t.kind
    · exact ⟨l, a, ⟨[], rfl, by simp⟩, ha⟩
    · have ht' : t ∈ l := by
        rcases List.mem_append.1 ht with ht | ht
        · exact ht
        · exact absurd (congrArg NodeType.kind (List.mem_singleton.1 ht)).symm ha
      obtain ⟨before, u, ⟨after, rfl, hafter⟩, hu⟩ := ih ht'
      refine ⟨before, u, ⟨after ++ [a], by simp, ?_⟩, hu⟩
      intro v hv
      rcases List.mem_append.1 hv with hv | hv
      · exact hafter v hv
      · rw [List.mem_singleton.1 hv, hu]
        exact ha

variable {types before : List NodeType} {t : NodeType}

theorem LastOfKind.mem (h : LastOfKind types before t) : t ∈ describedOf types := by
  obtain ⟨after, heq, -⟩ := h
  simp [heq]

/-- What is said of a kind is said by its last node type, or else in front of it. -/
theorem LastOfKind.lastSome_eq {β : Type} (h : LastOfKind types before t)
    (f : NodeType → Option β) :
    lastSome (fun u => if u.kind = t.kind then f u else none) (describedOf types) =
      (f t).or (lastSome (fun u => if u.kind = t.kind then f u else none) before) := by
  obtain ⟨after, heq, hafter⟩ := h
  have hnone : lastSome (fun u => if u.kind = t.kind then f u else none) after = none := by
    rw [lastSome_eq_none_iff]
    intro u hu
    rw [if_neg (hafter u hu)]
  rw [heq, List.append_cons, lastSome_append, lastSome_concat, hnone, if_pos rfl, Option.none_or]

theorem LastOfKind.field? (h : LastOfKind types before t) (name : String) :
    (derive types).2.field? t.kind name =
      (slotUnder name (fieldSlots t)).or (latest fieldSlots t.kind name before) := by
  rw [field?_derive]
  exact h.lastSome_eq fun u => slotUnder name (fieldSlots u)

theorem LastOfKind.accessor? (h : LastOfKind types before t) (name : String) :
    (derive types).2.accessor? t.kind name =
      (slotUnder name (accessorSlots (Supertypes.ofTypes types) t)).or
        (latest (accessorSlots (Supertypes.ofTypes types)) t.kind name before) := by
  rw [accessor?_derive]
  exact h.lastSome_eq fun u => slotUnder name (accessorSlots (Supertypes.ofTypes types) u)

theorem LastOfKind.entity? (h : LastOfKind types before t) :
    (derive types).1.entity? t.kind = some (entityOf (Supertypes.ofTypes types) t) := by
  rw [entity?_derive, h.lastSome_eq, Option.some_or]

theorem exists_lastOfKind_of_latest {slots : NodeType → List (String × Slot)}
    {rule name : String} {slot : Slot}
    (h : latest slots rule name (describedOf types) = some slot) :
    ∃ before t, LastOfKind types before t ∧ t.kind = rule := by
  obtain ⟨u, hu, hslot⟩ := exists_of_lastSome h
  have hkind : u.kind = rule := by
    by_contra hne
    simp [hne] at hslot
  obtain ⟨before, t, hlast, ht⟩ := exists_lastOfKind hu
  exact ⟨before, t, hlast, ht.trans hkind⟩

theorem exists_lastOfKind_of_entity? {rule : String} {e : Entity}
    (h : (derive types).1.entity? rule = some e) :
    ∃ before t, LastOfKind types before t ∧ t.kind = rule ∧
      e = entityOf (Supertypes.ofTypes types) t := by
  rw [entity?_derive] at h
  obtain ⟨u, hu, he⟩ := exists_of_lastSome h
  have hkind : u.kind = rule := by
    by_contra hne
    simp [hne] at he
  obtain ⟨before, t, hlast, ht⟩ := exists_lastOfKind hu
  refine ⟨before, t, hlast, ht.trans hkind, ?_⟩
  have hent := hlast.entity?
  rw [entity?_derive, ht, hkind, h] at hent
  exact Option.some.inj hent

/-! ## Distinct kinds -/

/-- No two named node types have one kind. -/
def DistinctKinds (types : List NodeType) : Prop :=
  ((types.filter NodeType.named).map NodeType.kind).Nodup

instance (types : List NodeType) : Decidable (DistinctKinds types) :=
  inferInstanceAs (Decidable (List.Nodup _))

theorem describedOf_nodup (h : DistinctKinds types) :
    ((describedOf types).map NodeType.kind).Nodup := by
  refine List.Nodup.sublist (List.Sublist.map _ ?_) h
  have hsub : describedOf types =
      (types.filter NodeType.named).filter
        fun t => !(Supertypes.ofTypes types).contains t.kind := by
    simp [describedOf, described, List.filter_filter, Bool.and_comm]
  rw [hsub]
  exact List.filter_sublist

theorem lastOfKind_of_mem (h : DistinctKinds types) (ht : t ∈ describedOf types) :
    ∃ before, LastOfKind types before t := by
  obtain ⟨before, u, hlast, hkind⟩ := exists_lastOfKind ht
  obtain rfl : u = t := List.inj_on_of_nodup_map (describedOf_nodup h) hlast.mem ht hkind
  exact ⟨before, hlast⟩

theorem latest_before_eq_none (h : DistinctKinds types) (hlast : LastOfKind types before t)
    (slots : NodeType → List (String × Slot)) (name : String) :
    latest slots t.kind name before = none := by
  obtain ⟨after, heq, -⟩ := hlast
  have hn := describedOf_nodup h
  rw [heq, List.map_append, List.nodup_append] at hn
  refine lastSome_eq_none_iff.2 fun u hu => if_neg ?_
  exact hn.2.2 _ (List.mem_map_of_mem hu) _ (by simp)

end Grammar

end SourceOutline
