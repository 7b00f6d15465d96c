import Mathlib.Data.List.FinRange
import Mathlib.Data.List.Forall2
import SourceOutline.Proofs.Grammar.Expansion
import SourceOutline.Proofs.Metamodel.Registration

/-
  What is derived from node types does not depend on the order in which they come, nor on the order
  of the subtypes in each of them (`derive_arrange`), as long as no kind is described twice.

  Three things are built one after the other: the supertypes, the metamodel and the table. None of
  them lets its order be seen. A kind is a supertype, or a subtype of another, wherever it is listed
  (`isNamedSubtype_iff_exists`), and the expansion knows nothing else of the supertypes. What is
  found under a kind is the answer of its one node type (`answer_eq`). The rules of a table are
  those that have a slot (`Tidy.mem_rules_iff`), so that the look-ups give its size.
-/

namespace SourceOutline

/-! ## The rules of a table, by its slots -/

namespace SlotTable

/-- Every rule of the table is there once, and has a slot. -/
structure Tidy (t : SlotTable) : Prop where
  distinct : (t.rules.map RuleSlots.rule).Nodup
  filled : ∀ slots ∈ t.rules, slots.fields ≠ [] ∨ slots.accessors ≠ []

variable {t t' : SlotTable}

theorem tidy_empty : Tidy ∅ := ⟨.nil, fun _ h => nomatch h⟩

theorem Tidy.put (h : t.Tidy) {slots : RuleSlots}
    (hfilled : slots.fields ≠ [] ∨ slots.accessors ≠ []) :
    Tidy ⟨Keyed.put RuleSlots.rule slots t.rules⟩ := by
  refine ⟨Keyed.nodup_put h.distinct slots, fun x hx => ?_⟩
  rcases Keyed.eq_or_mem_of_mem_put hx with rfl | hx
  · exact hfilled
  · exact h.filled x hx

theorem Tidy.insertField (h : t.Tidy) (rule name : String) (slot : Slot) :
    (t.insertField rule name slot).Tidy :=
  h.put (.inl (Keyed.put_ne_nil _ _ _))

theorem Tidy.insertAccessor (h : t.Tidy) (rule name : String) (slot : Slot) :
    (t.insertAccessor rule name slot).Tidy :=
  h.put (.inr (Keyed.put_ne_nil _ _ _))

theorem exists_find?_ne_none {slots : List (String × Slot)} (h : slots ≠ []) :
    ∃ name, Keyed.find? Prod.fst name slots ≠ none := by
  obtain ⟨e, rest, rfl⟩ := List.exists_cons_of_ne_nil h
  refine ⟨e.1, ?_⟩
  rw [Keyed.find?_cons, if_pos rfl]
  exact Option.some_ne_none e

/-- The rules of a table are those that have a slot. -/
theorem Tidy.mem_rules_iff (h : t.Tidy) {rule : String} :
    rule ∈ t.rules.map RuleSlots.rule ↔
      ∃ name, t.field? rule name ≠ none ∨ t.accessor? rule name ≠ none := by
  simp only [field?_eq_slotsOf, accessor?_eq_slotsOf, ne_eq, Option.map_eq_none_iff]
  constructor
  · intro hrule
    obtain ⟨slots, hslots, rfl⟩ := List.mem_map.1 hrule
    have hown : t.slotsOf slots.rule = slots := by
      rw [slotsOf, Keyed.find?_of_mem h.distinct hslots, Option.getD_some]
    rw [hown]
    rcases h.filled slots hslots with hfields | haccessors
    · exact (exists_find?_ne_none hfields).imp fun _ => .inl
    · exact (exists_find?_ne_none haccessors).imp fun _ => .inr
  · rintro ⟨name, hname⟩
    by_contra hrule
    have hnew : t.slotsOf rule = { rule } := by
      rw [slotsOf, Keyed.find?_eq_none_iff.2 hrule, Option.getD_none]
    rw [hnew] at hname
    exact hname.elim (· rfl) (· rfl)

/-- Tables that answer alike have the same size. -/
theorem Tidy.size_eq (h : t.Tidy) (h' : t'.Tidy)
    (hfield : ∀ rule name, t'.field? rule name = t.field? rule name)
    (haccessor : ∀ rule name, t'.accessor? rule name = t.accessor? rule name) :
    t'.size = t.size := by
  have hrules : (t'.rules.map RuleSlots.rule).Perm (t.rules.map RuleSlots.rule) := by
    rw [List.perm_ext_iff_of_nodup h'.distinct h.distinct]
    intro rule
    rw [h'.mem_rules_iff, h.mem_rules_iff]
    simp only [hfield, haccessor]
  have hlength := hrules.length_eq
  rwa [List.length_map, List.length_map] at hlength

end SlotTable

namespace Grammar

theorem tidy_addSlots (s : Supertypes) {table : SlotTable} (h : table.Tidy) (t : NodeType) :
    (addSlots s table t).Tidy := by
  rw [addSlots_eq]
  refine List.foldlRecOn _ _ ?_ fun tb htb a _ => htb.insertAccessor t.kind a.1 a.2
  exact List.foldlRecOn _ _ h fun tb htb f _ => htb.insertField t.kind f.1 f.2

theorem tidy_derive (types : List NodeType) : (derive types).2.Tidy :=
  List.foldlRecOn _ _ SlotTable.tidy_empty fun _ htb t _ => tidy_addSlots _ htb t

/-! ## The entities in order -/

theorem entities_ofEntities {l : List Entity} (h : (l.map Entity.name).Nodup) :
    (Metamodel.ofEntities l).entities = l := by
  induction l using List.reverseRecOn with
  | nil => rfl
  | append_singleton l e ih =>
    rw [List.map_append, List.nodup_append] at h
    have hentities := ih h.1
    have hnew : e.name ∉ l.map Entity.name := by
      intro hmem
      exact h.2.2 _ hmem _ (by simp) rfl
    rw [Metamodel.ofEntities_concat, Metamodel.entities_register, hentities,
      Keyed.put_of_not_mem hnew]

theorem entities_derive {types : List NodeType} (h : DistinctKinds types) :
    (derive types).1.entities =
      (describedOf types).map (entityOf (Supertypes.ofTypes types)) := by
  refine entities_ofEntities ?_
  rw [List.map_map]
  exact describedOf_nodup h

/-- The entity that a node type has in a metamodel; one that is not named has none. -/
def entityFor (m : Metamodel) (t : NodeType) : Option Entity :=
  if t.named then m.entity? t.kind else none

theorem entityFor_derive {types : List NodeType} (h : DistinctKinds types) {t : NodeType}
    (ht : t ∈ types) :
    entityFor (derive types).1 t =
      if t.named && !(Supertypes.ofTypes types).contains t.kind then
        some (entityOf (Supertypes.ofTypes types) t)
      else none := by
  unfold entityFor
  cases hnamed : t.named with
  | false => rfl
  | true =>
    cases hcontains : (Supertypes.ofTypes types).contains t.kind with
    | false =>
      have hdescribed : t ∈ describedOf types :=
        List.mem_filter.2 ⟨ht, by simp [hnamed, hcontains]⟩
      obtain ⟨before, hlast⟩ := lastOfKind_of_mem h hdescribed
      exact hlast.entity?
    | true =>
      -- no node type of this kind describes nodes
      have hnone : (derive types).1.entity? t.kind = none := by
        rw [entity?_derive, lastSome_eq_none_iff]
        intro u hu
        have hu' := (List.mem_filter.1 hu).2
        have hne : u.kind ≠ t.kind := by
          intro hkind
          rw [hkind, hcontains] at hu'
          simp at hu'
        exact if_neg hne
      exact hnone

/-- The entities of a derived metamodel come in the order of the node types. -/
theorem entities_eq_filterMap {types : List NodeType} (h : DistinctKinds types) :
    (derive types).1.entities = types.filterMap (entityFor (derive types).1) := by
  rw [entities_derive h, describedOf, described,
    List.filterMap_congr fun t ht => entityFor_derive h ht]
  rw [← List.filterMap_eq_map, List.filterMap_filter]
  rfl

/-! ## Rearranged node types -/

/-- Of no kind do two node types list subtypes. -/
def DistinctSupertypes (types : List NodeType) : Prop :=
  ((types.filter fun t => t.subtypes.isSome).map NodeType.kind).Nodup

instance (types : List NodeType) : Decidable (DistinctSupertypes types) :=
  inferInstanceAs (Decidable (List.Nodup _))

/-- Node types that differ in nothing but the order of their subtypes. -/
structure SubtypesReordered (t u : NodeType) : Prop where
  kind : u.kind = t.kind
  named : u.named = t.named
  fields : u.fields = t.fields
  children : u.children = t.children
  subtypes : Option.Rel List.Perm t.subtypes u.subtypes

/-- The node types in the order that `σ` puts them in. -/
def arrange (types : List NodeType) (σ : Equiv.Perm (Fin types.length)) : List NodeType :=
  List.ofFn fun i => types.get (σ i)

theorem arrange_perm (types : List NodeType) (σ : Equiv.Perm (Fin types.length)) :
    (arrange types σ).Perm types := by
  have hperm := σ.ofFn_comp_perm types.get
  rwa [List.ofFn_get] at hperm

/-- The second list has the node types of the first in some order, each with its subtypes in some
    order. -/
def Rearranged (types types' : List NodeType) : Prop :=
  ∃ mid : List NodeType, mid.Perm types ∧ List.Forall₂ SubtypesReordered mid types'

variable {types types' mid : List NodeType} {t u : NodeType}

theorem isSome_eq_of_rel {α : Type} {R : α → α → Prop} {a b : Option α} (h : Option.Rel R a b) :
    b.isSome = a.isSome := by
  cases h <;> rfl

theorem exists_mem_iff_of_rel {α : Type} {a b : Option (List α)} (h : Option.Rel List.Perm a b)
    {x : α} : (∃ l, b = some l ∧ x ∈ l) ↔ ∃ l, a = some l ∧ x ∈ l := by
  cases h with
  | none => rfl
  | some hperm => simp [hperm.mem_iff]

theorem SubtypesReordered.isSome_subtypes (h : SubtypesReordered t u) :
    u.subtypes.isSome = t.subtypes.isSome :=
  isSome_eq_of_rel h.subtypes

theorem SubtypesReordered.isLeaf_eq (h : SubtypesReordered t u) : isLeaf u = isLeaf t := by
  rw [isLeaf, isLeaf, h.fields, h.children]

theorem SubtypesReordered.childrenMultiple_eq (h : SubtypesReordered t u) :
    childrenMultiple u = childrenMultiple t := by
  rw [childrenMultiple, childrenMultiple, h.children]

theorem map_eq_of_forall₂ {α β γ : Type} {R : α → β → Prop} {f : α → γ} {g : β → γ}
    (hf : ∀ a b, R a b → g b = f a) {l : List α} {l' : List β} (h : List.Forall₂ R l l') :
    l'.map g = l.map f := by
  have hmap : List.Forall₂ Eq (l.map f) (l'.map g) :=
    List.rel_map (fun a b hab => (hf a b hab).symm) h
  rw [List.forall₂_eq_eq_eq] at hmap
  exact hmap.symm

theorem exists_of_forall₂ {α β : Type} {R : α → β → Prop} {l : List α} {l' : List β}
    (h : List.Forall₂ R l l') {a : α} (ha : a ∈ l) : ∃ b ∈ l', R a b := by
  induction h with
  | nil => simp at ha
  | cons hab _ ih =>
    rcases List.mem_cons.1 ha with rfl | ha
    · exact ⟨_, List.mem_cons_self, hab⟩
    · obtain ⟨b, hb, hrel⟩ := ih ha
      exact ⟨b, List.mem_cons_of_mem _ hb, hrel⟩

theorem Rearranged.kinds_perm (h : Rearranged types types') {p : NodeType → Bool}
    (hp : ∀ t u, SubtypesReordered t u → p u = p t) :
    ((types'.filter p).map NodeType.kind).Perm ((types.filter p).map NodeType.kind) := by
  obtain ⟨mid, hmid, hsame⟩ := h
  have hfilter : List.Forall₂ SubtypesReordered (mid.filter p) (types'.filter p) :=
    List.rel_filter (fun t u htu => by simp only [hp t u htu]) hsame
  rw [map_eq_of_forall₂ (fun _ _ htu => htu.kind) hfilter]
  exact (hmid.filter p).map NodeType.kind

theorem Rearranged.distinctKinds (h : Rearranged types types') (hd : DistinctKinds types) :
    DistinctKinds types' :=
  (h.kinds_perm fun _ _ h => h.named).nodup_iff.2 hd

theorem Rearranged.distinctSupertypes (h : Rearranged types types')
    (hd : DistinctSupertypes types) : DistinctSupertypes types' :=
  (h.kinds_perm fun _ _ h => h.isSome_subtypes).nodup_iff.2 hd

theorem Rearranged.exists_right (h : Rearranged types types') (ht : t ∈ types) :
    ∃ u ∈ types', SubtypesReordered t u := by
  obtain ⟨mid, hmid, hsame⟩ := h
  exact exists_of_forall₂ hsame (hmid.mem_iff.2 ht)

theorem Rearranged.exists_left (h : Rearranged types types') (hu : u ∈ types') :
    ∃ t ∈ types, SubtypesReordered t u := by
  obtain ⟨mid, hmid, hsame⟩ := h
  obtain ⟨t, ht, htu⟩ := exists_of_forall₂ hsame.flip hu
  exact ⟨t, hmid.mem_iff.1 ht, htu⟩

/-! ## The same supertypes -/

theorem subtypesOf_iff (hd : DistinctSupertypes types) {kind : String} {subs : List TypeRef} :
    Supertypes.SubtypesOf types kind subs ↔
      ∃ t ∈ types, t.kind = kind ∧ t.subtypes = some subs := by
  constructor
  · rintro ⟨before, t, after, rfl, hkind, hsubs, -⟩
    exact ⟨t, by simp, hkind, hsubs⟩
  · rintro ⟨t, ht, hkind, hsubs⟩
    obtain ⟨before, after, rfl⟩ := List.append_of_mem ht
    refine ⟨before, t, after, rfl, hkind, hsubs, fun u hu huk => ?_⟩
    -- a second node type with subtypes would have the same kind
    by_contra hne
    have hsome : t.subtypes.isSome = true := by rw [hsubs]; rfl
    have hsome' : u.subtypes.isSome = true := Option.isSome_iff_ne_none.2 hne
    rw [DistinctSupertypes, List.filter_append, List.filter_cons, if_pos hsome, List.map_append,
      List.map_cons, List.nodup_append, List.nodup_cons] at hd
    refine hd.2.1.1 ?_
    rw [hkind, ← huk]
    exact List.mem_map_of_mem (List.mem_filter.2 ⟨hu, hsome'⟩)

theorem isNamedSubtype_iff_exists (hd : DistinctSupertypes types) {kind sub : String} :
    Supertypes.IsNamedSubtype types kind sub ↔
      ∃ t ∈ types, t.kind = kind ∧ ∃ subs, t.subtypes = some subs ∧ ⟨sub, true⟩ ∈ subs := by
  unfold Supertypes.IsNamedSubtype
  simp only [subtypesOf_iff hd]
  constructor
  · rintro ⟨subs, ⟨t, ht, hkind, hsubs⟩, hsub⟩
    exact ⟨t, ht, hkind, subs, hsubs, hsub⟩
  · rintro ⟨t, ht, hkind, subs, hsubs, hsub⟩
    exact ⟨subs, ⟨t, ht, hkind, hsubs⟩, hsub⟩

theorem Rearranged.isSupertype_iff (h : Rearranged types types') (kind : String) :
    Supertypes.IsSupertype types' kind ↔ Supertypes.IsSupertype types kind := by
  unfold Supertypes.IsSupertype
  simp only [← Option.isSome_iff_ne_none]
  constructor
  · rintro ⟨u, hu, rfl, hsome⟩
    obtain ⟨t, ht, htu⟩ := h.exists_left hu
    exact ⟨t, ht, htu.kind.symm, htu.isSome_subtypes ▸ hsome⟩
  · rintro ⟨t, ht, rfl, hsome⟩
    obtain ⟨u, hu, htu⟩ := h.exists_right ht
    exact ⟨u, hu, htu.kind, htu.isSome_subtypes ▸ hsome⟩

theorem Rearranged.isNamedSubtype_iff (h : Rearranged types types')
    (hd : DistinctSupertypes types) (kind sub : String) :
    Supertypes.IsNamedSubtype types' kind sub ↔ Supertypes.IsNamedSubtype types kind sub := by
  rw [isNamedSubtype_iff_exists (h.distinctSupertypes hd), isNamedSubtype_iff_exists hd]
  constructor
  · rintro ⟨u, hu, rfl, hsub⟩
    obtain ⟨t, ht, htu⟩ := h.exists_left hu
    exact ⟨t, ht, htu.kind.symm, (exists_mem_iff_of_rel htu.subtypes).1 hsub⟩
  · rintro ⟨t, ht, rfl, hsub⟩
    obtain ⟨u, hu, htu⟩ := h.exists_right ht
    exact ⟨u, hu, htu.kind, (exists_mem_iff_of_rel htu.subtypes).2 hsub⟩

theorem Rearranged.contains_eq (h : Rearranged types types') (kind : String) :
    (Supertypes.ofTypes types').contains kind = (Supertypes.ofTypes types).contains kind := by
  rw [Bool.eq_iff_iff, ← not_iff_not, Bool.not_eq_true, Bool.not_eq_true,
    Supertypes.contains_ofTypes_eq_false_iff, Supertypes.contains_ofTypes_eq_false_iff,
    h.isSupertype_iff]

theorem Rearranged.expand_eq (h : Rearranged types types') (hd : DistinctSupertypes types)
    (kind : String) :
    (Supertypes.ofTypes types').expand kind = (Supertypes.ofTypes types).expand kind := by
  refine NameSet.ext fun c => ?_
  rw [Supertypes.mem_expand_iff, Supertypes.mem_expand_iff, Supertypes.reaches_iff_chain,
    Supertypes.reaches_iff_chain, h.contains_eq]
  unfold Supertypes.Chain
  simp only [h.isSupertype_iff, h.isNamedSubtype_iff hd]

/-! ## The same answers -/

section Alike

variable {s s' : Supertypes} (hcontains : ∀ k, s'.contains k = s.contains k)
  (hexpand : ∀ k, s'.expand k = s.expand k)

include hexpand in
theorem claims_congr (taken : List String) (claimed : NameSet) (kinds : List String) :
    claims s' taken claimed kinds = claims s taken claimed kinds := by
  induction kinds generalizing taken claimed with
  | nil => rfl
  | cons kind rest ih => simp only [claims, hexpand, ih]

include hcontains in
theorem claimOrder_congr (types : List TypeRef) : claimOrder s' types = claimOrder s types := by
  have hfun : s'.contains = s.contains := funext hcontains
  rw [claimOrder, claimOrder, hfun]

include hcontains hexpand

theorem childClaims_congr (h : SubtypesReordered t u) : childClaims s' u = childClaims s t := by
  unfold childClaims
  rw [h.children, h.fields]
  cases t.children with
  | none => rfl
  | some spec => simp only [claimOrder_congr hcontains, claims_congr hexpand]

theorem entityOf_congr (h : SubtypesReordered t u) : entityOf s' u = entityOf s t := by
  rw [entityOf, entityOf, childClaims_congr hcontains hexpand h, h.isLeaf_eq,
    h.childrenMultiple_eq, h.fields, h.kind]

theorem accessorSlots_congr (h : SubtypesReordered t u) :
    accessorSlots s' u = accessorSlots s t := by
  rw [accessorSlots, accessorSlots, childClaims_congr hcontains hexpand h, h.isLeaf_eq,
    h.childrenMultiple_eq]

end Alike

theorem fieldSlots_congr (h : SubtypesReordered t u) : fieldSlots u = fieldSlots t := by
  rw [fieldSlots, fieldSlots, h.fields]

theorem lastSome_cons {α β : Type} (f : α → Option β) (a : α) (l : List α) :
    lastSome f (a :: l) = (lastSome f l).or (f a) := by
  have hone : lastSome f [a] = f a := by cases h : f a <;> simp [lastSome, h]
  rw [← List.singleton_append, lastSome_append, hone]

/-- Where at most one item has something, the order does not matter. -/
theorem lastSome_perm {α β : Type} {f : α → Option β} {l l' : List α} (h : l.Perm l')
    (hone : l.Pairwise fun a b => f a = none ∨ f b = none) : lastSome f l = lastSome f l' := by
  induction h with
  | nil => rfl
  | cons a _ ih => rw [lastSome_cons, lastSome_cons, ih (List.pairwise_cons.1 hone).2]
  | swap a b l =>
    rw [lastSome_cons, lastSome_cons, lastSome_cons, lastSome_cons]
    rcases (List.pairwise_cons.1 hone).1 a List.mem_cons_self with hnone | hnone
    · rw [hnone, Option.or_none, Option.or_none]
    · rw [hnone, Option.or_none, Option.or_none]
  | trans h₁ _ ih₁ ih₂ =>
    exact (ih₁ hone).trans (ih₂ ((h₁.pairwise_iff fun h => h.symm).1 hone))

theorem lastSome_map {α β : Type} (f : α → Option β) (l : List α) :
    lastSome id (l.map f) = lastSome f l := by
  rw [lastSome, lastSome, ← List.map_reverse, List.findSome?_map]
  rfl

/-- What is said of a kind does not depend on the order of the node types. -/
theorem answer_eq {β : Type} (h : Rearranged types types') (hkinds : DistinctKinds types)
    {f g : NodeType → Option β} (hf : ∀ t u, SubtypesReordered t u → g u = f t)
    (rule : String) :
    lastSome (fun u => if u.kind = rule then g u else none) (describedOf types') =
      lastSome (fun t => if t.kind = rule then f t else none) (describedOf types) := by
  have hcontains := h.contains_eq
  obtain ⟨mid, hmid, hsame⟩ := h
  have hdescribed : List.Forall₂ SubtypesReordered (described (Supertypes.ofTypes types) mid)
      (describedOf types') := by
    refine List.rel_filter ?_ hsame
    intro t u htu
    simp only [htu.named, htu.kind, hcontains]
  have hperm : (described (Supertypes.ofTypes types) mid).Perm (describedOf types) :=
    hmid.filter _
  rw [← lastSome_map, map_eq_of_forall₂ (fun t u htu => by rw [htu.kind, hf t u htu]) hdescribed,
    lastSome_map]
  refine (lastSome_perm hperm.symm ?_).symm
  -- two node types that describe nodes have different kinds
  refine (List.pairwise_map.1 (describedOf_nodup hkinds)).imp fun {a b} hab => ?_
  by_cases ha : a.kind = rule
  · exact .inr (if_neg fun hb => hab (ha.trans hb.symm))
  · exact .inl (if_neg ha)

/-! ## The same derivation -/

/-- Two lists of node types have the same supertypes, and what is derived from them answers
    alike. -/
structure DerivedAlike (types types' : List NodeType) : Prop where
  contains : ∀ kind,
    (Supertypes.ofTypes types').contains kind = (Supertypes.ofTypes types).contains kind
  expand : ∀ kind,
    (Supertypes.ofTypes types').expand kind = (Supertypes.ofTypes types).expand kind
  entity : ∀ kind, (derive types').1.entity? kind = (derive types).1.entity? kind
  field : ∀ rule name, (derive types').2.field? rule name = (derive types).2.field? rule name
  accessor : ∀ rule name,
    (derive types').2.accessor? rule name = (derive types).2.accessor? rule name
  entities_size : (derive types').1.size = (derive types).1.size
  table_size : (derive types').2.size = (derive types).2.size

theorem entity?_rearranged (h : Rearranged types types') (hsupertypes : DistinctSupertypes types)
    (hkinds : DistinctKinds types) (kind : String) :
    (derive types').1.entity? kind = (derive types).1.entity? kind := by
  rw [entity?_derive, entity?_derive]
  refine answer_eq h hkinds (fun t u htu => ?_) kind
  rw [entityOf_congr h.contains_eq (h.expand_eq hsupertypes) htu]

/-- The entities of the rearranged node types, in the order of these. -/
theorem entities_rearranged (hmid : mid.Perm types)
    (hsame : List.Forall₂ SubtypesReordered mid types') (hsupertypes : DistinctSupertypes types)
    (hkinds : DistinctKinds types) :
    (derive types').1.entities = mid.filterMap (entityFor (derive types).1) := by
  have h : Rearranged types types' := ⟨mid, hmid, hsame⟩
  have hentity :
      types'.map (entityFor (derive types').1) = mid.map (entityFor (derive types).1) := by
    refine map_eq_of_forall₂ (fun t u htu => ?_) hsame
    rw [entityFor, entityFor, htu.named, htu.kind, entity?_rearranged h hsupertypes hkinds]
  calc (derive types').1.entities
      = types'.filterMap (entityFor (derive types').1) :=
        entities_eq_filterMap (h.distinctKinds hkinds)
    _ = (types'.map (entityFor (derive types').1)).filterMap id := by
        rw [List.filterMap_map, Function.id_comp]
    _ = (mid.map (entityFor (derive types).1)).filterMap id := by rw [hentity]
    _ = mid.filterMap (entityFor (derive types).1) := by
        rw [List.filterMap_map, Function.id_comp]

/-- Node types in another order, each with its subtypes in another order, lead to the same
    supertypes, the same entities and the same slots, and the entities come in the new order of
    their node types. -/
theorem derive_arrange (types types' : List NodeType) (σ : Equiv.Perm (Fin types.length))
    (h : List.Forall₂ SubtypesReordered (arrange types σ) types')
    (hsupertypes : DistinctSupertypes types) (hkinds : DistinctKinds types) :
    DerivedAlike types types' ∧
      (derive types).1.entities = types.filterMap (entityFor (derive types).1) ∧
      (derive types').1.entities = (arrange types σ).filterMap (entityFor (derive types).1) := by
  have hmid := arrange_perm types σ
  have hre : Rearranged types types' := ⟨arrange types σ, hmid, h⟩
  have hcontains := hre.contains_eq
  have hexpand := hre.expand_eq hsupertypes
  have hentities := entities_eq_filterMap hkinds
  have hentities' := entities_rearranged hmid h hsupertypes hkinds
  have hfield : ∀ rule name,
      (derive types').2.field? rule name = (derive types).2.field? rule name := by
    intro rule name
    rw [field?_derive, field?_derive]
    exact answer_eq hre hkinds (fun t u htu => by rw [fieldSlots_congr htu]) rule
  have haccessor : ∀ rule name,
      (derive types').2.accessor? rule name = (derive types).2.accessor? rule name := by
    intro rule name
    rw [accessor?_derive, accessor?_derive]
    exact answer_eq hre hkinds
      (fun t u htu => by rw [accessorSlots_congr hcontains hexpand htu]) rule
  have hentity := entity?_rearranged hre hsupertypes hkinds
  refine ⟨⟨hcontains, hexpand, hentity, hfield, haccessor, ?_, ?_⟩, hentities, hentities'⟩
  · show (derive types').1.entities.length = (derive types).1.entities.length
    rw [hentities', hentities]
    exact (hmid.filterMap _).length_eq
  · exact (tidy_derive types).size_eq (tidy_derive types') hfield haccessor

/-- Statements and terms in a circle, a block of them, and a name; beside the names, a token of the
    same kind. -/
def blockTypes : List NodeType :=
  [{ kind := "_statement", named := true,
      subtypes := some [⟨"block", true⟩, ⟨"_term", true⟩, ⟨";", false⟩] },
    { kind := "block", named := true,
      children := some ⟨true, false, [⟨"_statement", true⟩, ⟨"name", true⟩]⟩ },
    { kind := "name", named := true },
    { kind := "name", named := false },
    { kind := "_term", named := true,
      subtypes := some [⟨"name", true⟩, ⟨"_statement", true⟩] }]

/-- The same from the last to the first, with the subtypes from the last to the first. -/
def blockTypesReversed : List NodeType :=
  [{ kind := "_term", named := true,
      subtypes := some [⟨"_statement", true⟩, ⟨"name", true⟩] },
    { kind := "name", named := false },
    { kind := "name", named := true },
    { kind := "block", named := true,
      children := some ⟨true, false, [⟨"_statement", true⟩, ⟨"name", true⟩]⟩ },
    { kind := "_statement", named := true,
      subtypes := some [⟨";", false⟩, ⟨"_term", true⟩, ⟨"block", true⟩] }]

theorem derive_arrange_blockTypes :
    List.Forall₂ SubtypesReordered (arrange blockTypes Fin.revPerm) blockTypesReversed ∧
      DistinctSupertypes blockTypes ∧ DistinctKinds blockTypes ∧
      DerivedAlike blockTypes blockTypesReversed ∧
      (derive blockTypesReversed).1.entities =
        (arrange blockTypes Fin.revPerm).filterMap (entityFor (derive blockTypes).1) ∧
      (derive blockTypes).1.names = ["block", "name"] ∧
      (derive blockTypesReversed).1.names = ["name", "block"] := by
  have hsame : List.Forall₂ SubtypesReordered (arrange blockTypes Fin.revPerm)
      blockTypesReversed :=
    .cons ⟨rfl, rfl, rfl, rfl, .some (by decide)⟩ <|
      .cons ⟨rfl, rfl, rfl, rfl, .none⟩ <| .cons ⟨rfl, rfl, rfl, rfl, .none⟩ <|
      .cons ⟨rfl, rfl, rfl, rfl, .none⟩ <| .cons ⟨rfl, rfl, rfl, rfl, .some (by decide)⟩ .nil
  have hsupertypes : DistinctSupertypes blockTypes := by decide
  have hkinds : DistinctKinds blockTypes := by decide
  obtain ⟨halike, -, hentities⟩ :=
    derive_arrange blockTypes blockTypesReversed Fin.revPerm hsame hsupertypes hkinds
  exact ⟨hsame, hsupertypes, hkinds, halike, hentities, by decide +kernel, by decide +kernel⟩

end Grammar

end SourceOutline
