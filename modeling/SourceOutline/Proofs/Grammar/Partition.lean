import SourceOutline.Proofs.Grammar.Features

/-
  The kinds of the children outside any field are partitioned among the relations for them.

  The types that a node type lists for such children claim their kinds one after the other. So a
  kind belongs to the first type that stands for it in the order of the claims
  (`exists_mem_claims_target_iff`), in which the concrete kinds come before the supertypes
  (`find?_claimOrder`): a kind that is listed has a relation to itself, and any other kind belongs
  to the first supertype of the list that stands for it. `ChildPartition` says this of the relations
  and the slots of a node type, and `exists_childPartition` shows it of every node type.
-/

namespace SourceOutline

/-- A kind that is no supertype stands for itself alone. -/
theorem Supertypes.expand_of_not_contains {s : Supertypes} {kind : String}
    (h : s.contains kind = false) : s.expand kind = .ofList [kind] := by
  have hnone : s.subtypes? kind = none := by
    rw [contains, Option.isSome_eq_false_iff] at h
    exact Option.isNone_iff_eq_none.1 h
  rw [expand, expandFrom, if_neg (NameSet.not_mem_empty kind)]
  split
  · next subs hsubs =>
    rw [hnone] at hsubs
    cases hsubs
  · rw [expandFrom]
    rfl

theorem Supertypes.mem_expand_of_not_contains {s : Supertypes} {kind k : String}
    (h : s.contains kind = false) : k ∈ s.expand kind ↔ k = kind := by
  rw [expand_of_not_contains h, NameSet.mem_ofList, List.mem_singleton]

/-- Among items with keys of their own, one alone has the key of a given one. -/
theorem Keyed.filter_eq_singleton {α κ : Type} [DecidableEq κ] {key : α → κ} {l : List α}
    (hl : (l.map key).Nodup) {a : α} (ha : a ∈ l) : (l.filter fun b => key b = key a) = [a] := by
  induction l with
  | nil => simp at ha
  | cons b l ih =>
    rw [List.map_cons, List.nodup_cons] at hl
    rcases List.mem_cons.1 ha with rfl | ha
    · have hrest : (l.filter fun b => key b = key a) = [] := by
        rw [List.filter_eq_nil_iff]
        intro b hb hkey
        exact hl.1 (of_decide_eq_true hkey ▸ List.mem_map_of_mem hb)
      rw [List.filter_cons_of_pos (by simp), hrest]
    · have hne : key b ≠ key a := fun h => hl.1 (h ▸ List.mem_map_of_mem ha)
      rw [List.filter_cons_of_neg (by simpa using hne), ih hl.2 ha]

namespace Grammar

variable {s : Supertypes} {taken : List String} {claimed : NameSet} {kinds : List String}

/-! ## The types that claim -/

theorem exists_mem_kinds_of_mem_claims {c : ChildClaim} (hc : c ∈ claims s taken claimed kinds) :
    ∃ k, k ∈ c.kinds := by
  fun_induction claims s taken claimed kinds with
  | case1 => simp at hc
  | case2 taken claimed kind rest own hempty ih => exact ih hc
  | case3 taken claimed kind rest own hempty name ih =>
    rcases List.mem_cons.1 hc with rfl | hc
    · by_contra hnone
      exact hempty (NameSet.isEmpty_iff.2 (not_exists.1 hnone))
    · exact ih hc

theorem find?_of_mem_claims {c : ChildClaim} (hc : c ∈ claims s taken claimed kinds) {k : String}
    (hk : k ∈ c.kinds) : kinds.find? (fun u => k ∈ s.expand u) = some c.target :=
  (exists_mem_claims_target_iff.1 ⟨c, hc, rfl, hk⟩).2

theorem target_mem_of_mem_claims {c : ChildClaim} (hc : c ∈ claims s taken claimed kinds) :
    c.target ∈ kinds := by
  obtain ⟨k, hk⟩ := exists_mem_kinds_of_mem_claims hc
  exact List.mem_of_find?_eq_some (find?_of_mem_claims hc hk)

theorem mem_expand_target_of_mem_claims {c : ChildClaim}
    (hc : c ∈ claims s taken claimed kinds) {k : String} (hk : k ∈ c.kinds) :
    k ∈ s.expand c.target := by
  simpa using List.find?_some (find?_of_mem_claims hc hk)

/-- A type that is listed again finds everything claimed. -/
theorem claims_targets_nodup (s : Supertypes) (taken : List String) (claimed : NameSet)
    (kinds : List String) : ((claims s taken claimed kinds).map ChildClaim.target).Nodup := by
  fun_induction claims s taken claimed kinds with
  | case1 => exact .nil
  | case2 taken claimed kind rest own hempty ih => exact ih
  | case3 taken claimed kind rest own hempty name ih =>
    rw [List.map_cons, List.nodup_cons]
    refine ⟨?_, ih⟩
    intro h
    obtain ⟨c, hc, htarget⟩ := List.mem_map.1 h
    obtain ⟨k, hk⟩ := exists_mem_kinds_of_mem_claims hc
    have hexpand : k ∈ s.expand c.target := mem_expand_target_of_mem_claims hc hk
    rw [htarget] at hexpand
    have hfree := not_mem_claimed_of_mem_claims hc hk
    rw [NameSet.mem_union, not_or] at hfree
    exact hfree.2 (NameSet.mem_diff.2 ⟨hexpand, hfree.1⟩)

/-! ## Concrete kinds before supertypes -/

/-- Of the types in the order of the claims, a kind that is listed comes first for itself, and for
    any other kind the first supertype of the list. -/
theorem find?_claimOrder (s : Supertypes) (types : List TypeRef) (k : String) :
    (claimOrder s types).find? (fun u => k ∈ s.expand u) =
      if k ∈ namedKinds types ∧ s.contains k = false then some k
      else (namedKinds types).find? fun u => s.contains u && decide (k ∈ s.expand u) := by
  unfold claimOrder
  simp only [List.find?_append, List.find?_filter, Bool.decide_and, Bool.decide_eq_true]
  split
  · next h =>
    have hsome : ((namedKinds types).find? fun u =>
        !s.contains u && decide (k ∈ s.expand u)).isSome := by
      refine List.find?_isSome.2 ⟨k, h.1, ?_⟩
      simp [h.2, Supertypes.mem_expand_of_not_contains h.2]
    obtain ⟨u, hu⟩ := Option.isSome_iff_exists.1 hsome
    have hfound := List.find?_some hu
    rw [Bool.and_eq_true, Bool.not_eq_true', decide_eq_true_eq] at hfound
    obtain rfl := (Supertypes.mem_expand_of_not_contains hfound.1).1 hfound.2
    rw [hu, Option.some_or]
  · next h =>
    have hnone : ((namedKinds types).find? fun u =>
        !s.contains u && decide (k ∈ s.expand u)) = none := by
      rw [List.find?_eq_none]
      intro u hu hfound
      rw [Bool.and_eq_true, Bool.not_eq_true', decide_eq_true_eq] at hfound
      obtain rfl := (Supertypes.mem_expand_of_not_contains hfound.1).1 hfound.2
      exact h ⟨hu, hfound.1⟩
    rw [hnone, Option.none_or]

/-! ## The partition -/

/-- A relation for children outside any field, with the kinds that its slot takes. -/
structure ChildShare where
  relation : Relation
  kinds : NameSet

/-- The relations of a node type beside its fields are those of `shares`, each has its slot, and the
    slots partition the kinds of the children that `spec` lists. -/
structure ChildPartition (s : Supertypes) (t : NodeType) (spec : ChildSpec)
    (shares : List ChildShare) : Prop where
  relations : (entityOf s t).relations = fieldRelations t.fields ++ shares.map ChildShare.relation
  slots : accessorSlots s t =
    shares.map fun x => (x.relation.name, .children x.kinds spec.multiple)
  inserted : ∀ table, ∀ x ∈ shares, (addSlots s table t).accessor? t.kind x.relation.name =
    some (.children x.kinds spec.multiple)
  target : ∀ x ∈ shares, ∃ u ∈ namedKinds spec.types, x.relation.targets = [u]
  nonempty : ∀ x ∈ shares, ∃ k, k ∈ x.kinds
  disjoint : shares.Pairwise fun x y => ∀ k ∈ x.kinds, k ∉ y.kinds
  union : ∀ k, (∃ x ∈ shares, k ∈ x.kinds) ↔ ∃ u ∈ namedKinds spec.types, k ∈ s.expand u
  listed : ∀ k ∈ namedKinds spec.types, s.contains k = false →
    ∃ r, (shares.filter fun x => x.relation.targets = [k]) = [⟨r, .ofList [k]⟩]
  unlisted : ∀ k, (∃ u ∈ namedKinds spec.types, k ∈ s.expand u) →
    ¬ (k ∈ namedKinds spec.types ∧ s.contains k = false) →
    ∃ u, (namedKinds spec.types).find? (fun u => s.contains u && decide (k ∈ s.expand u)) = some u ∧
      ∃ x ∈ shares, x.relation.targets = [u] ∧ k ∈ x.kinds

def shareOf (t : NodeType) (c : ChildClaim) : ChildShare :=
  ⟨⟨c.name, .ofMultiple (childrenMultiple t), [c.target]⟩, c.kinds⟩

variable {t : NodeType} {spec : ChildSpec}

theorem childClaims_of_children (h : t.children = some spec) :
    childClaims s t = claims s (t.fields.toList.map Prod.fst) ∅ (claimOrder s spec.types) := by
  simp [childClaims, h]

theorem childrenMultiple_of_children (h : t.children = some spec) :
    childrenMultiple t = spec.multiple := by
  simp [childrenMultiple, h]

/-- A kind is claimed for the first type, in the order of the claims, that stands for it. -/
theorem exists_mem_childClaims_target_iff (h : t.children = some spec) {k u : String} :
    (∃ c ∈ childClaims s t, c.target = u ∧ k ∈ c.kinds) ↔
      (claimOrder s spec.types).find? (fun u => k ∈ s.expand u) = some u := by
  rw [childClaims_of_children h, exists_mem_claims_target_iff]
  exact and_iff_right (NameSet.not_mem_empty k)

/-- The claim of a kind that is listed takes this kind and no other. -/
theorem exists_claim_of_listed (h : t.children = some spec) {k : String}
    (hk : k ∈ namedKinds spec.types) (hconcrete : s.contains k = false) :
    ∃ c ∈ childClaims s t, c.target = k ∧ c.kinds = .ofList [k] := by
  have hfirst := find?_claimOrder s spec.types k
  rw [if_pos ⟨hk, hconcrete⟩, ← exists_mem_childClaims_target_iff h] at hfirst
  obtain ⟨c, hc, rfl, hkc⟩ := hfirst
  refine ⟨c, hc, rfl, NameSet.ext fun x => ?_⟩
  rw [NameSet.mem_ofList, List.mem_singleton]
  constructor
  · intro hx
    rw [childClaims_of_children h] at hc
    exact (Supertypes.mem_expand_of_not_contains hconcrete).1
      (mem_expand_target_of_mem_claims hc hx)
  · rintro rfl
    exact hkc

theorem shares_targets_nodup (h : t.children = some spec) :
    (((childClaims s t).map (shareOf t)).map fun x => x.relation.targets).Nodup := by
  rw [childClaims_of_children h, List.map_map]
  have hnodup := (claims_targets_nodup s (t.fields.toList.map Prod.fst) ∅
    (claimOrder s spec.types)).map (f := fun u => [u]) fun _ _ hab => List.singleton_inj.1 hab
  rw [List.map_map] at hnodup
  exact hnodup

theorem accessorSlots_of_children (s : Supertypes) (h : t.children = some spec) :
    accessorSlots s t = ((childClaims s t).map (shareOf t)).map fun x =>
      (x.relation.name, .children x.kinds spec.multiple) := by
  have hleaf : isLeaf t = false := by simp [isLeaf, h]
  rw [accessorSlots_of_not_isLeaf s hleaf, childrenMultiple_of_children h, List.map_map]
  rfl

/-- The kinds of the children outside any field are partitioned among the relations for them. -/
theorem exists_childPartition (types : List NodeType) (t : NodeType) (spec : ChildSpec)
    (h : t.children = some spec) :
    ∃ shares, ChildPartition (Supertypes.ofTypes types) t spec shares := by
  generalize Supertypes.ofTypes types = s
  refine ⟨(childClaims s t).map (shareOf t), ?_⟩
  constructor
  case relations =>
    rw [List.map_map]
    rfl
  case slots => exact accessorSlots_of_children s h
  case inserted =>
    intro table x hx
    obtain ⟨c, hc, rfl⟩ := List.mem_map.1 hx
    rw [accessor?_addSlots, if_pos rfl, ← childrenMultiple_of_children h]
    simp only [shareOf, slotUnder_accessorSlots_claim hc, Option.some_or]
  case target =>
    intro x hx
    obtain ⟨c, hc, rfl⟩ := List.mem_map.1 hx
    rw [childClaims_of_children h] at hc
    exact ⟨c.target, mem_claimOrder.1 (target_mem_of_mem_claims hc), rfl⟩
  case nonempty =>
    intro x hx
    obtain ⟨c, hc, rfl⟩ := List.mem_map.1 hx
    rw [childClaims_of_children h] at hc
    exact exists_mem_kinds_of_mem_claims hc
  case disjoint => exact List.pairwise_map.2 (childClaims_disjoint s t)
  case union =>
    intro k
    have hclaimed := exists_mem_childClaims_iff (s := s) (t := t) (k := k)
    simp only [h, Option.some.injEq, exists_eq_left'] at hclaimed
    rw [← hclaimed]
    simp only [List.mem_map, shareOf, exists_exists_and_eq_and]
  case listed =>
    intro k hk hconcrete
    obtain ⟨c, hc, rfl, hkinds⟩ := exists_claim_of_listed h hk hconcrete
    refine ⟨(shareOf t c).relation, ?_⟩
    rw [← hkinds]
    exact Keyed.filter_eq_singleton (shares_targets_nodup h) (List.mem_map_of_mem hc)
  case unlisted =>
    intro k hk hother
    obtain ⟨c, hc, hkc⟩ := exists_mem_childClaims_iff.2 ⟨spec, h, hk⟩
    have hfirst := (exists_mem_childClaims_target_iff h).1 ⟨c, hc, rfl, hkc⟩
    rw [find?_claimOrder, if_neg hother] at hfirst
    exact ⟨c.target, hfirst, shareOf t c, List.mem_map_of_mem hc, rfl, hkc⟩

/-- Statements and terms that stand for each other's kinds, terms for themselves too. -/
def nestedSupertypes : List NodeType :=
  [{ kind := "_statement", named := true,
      subtypes := some [⟨"return", true⟩, ⟨"_term", true⟩, ⟨"call", true⟩] },
    { kind := "_term", named := true,
      subtypes := some [⟨"name", true⟩, ⟨"_term", true⟩, ⟨"call", true⟩, ⟨"(", false⟩] }]

/-- A block that lists a kind twice, and a supertype before what that one stands for. -/
def termBlock : NodeType where
  kind := "block"
  named := true
  fields := .ofList [("term", ⟨false, false, [⟨"_term", true⟩]⟩)]
  children := some ⟨true, false,
    [⟨"_term", true⟩, ⟨"name", true⟩, ⟨"_statement", true⟩, ⟨"name", true⟩, ⟨"_term", true⟩]⟩

/-- The names go to their own relation, the calls to the terms, and the rest to the statements. -/
theorem exists_childPartition_termBlock :
    ∃ spec shares, termBlock.children = some spec ∧
      ChildPartition (Supertypes.ofTypes nestedSupertypes) termBlock spec shares ∧
      shares.map (fun x => (x.relation.name, Slot.children x.kinds spec.multiple)) =
        [("name", .children (.ofList ["name"]) true),
          ("term_children", .children (.ofList ["call"]) true),
          ("statement", .children (.ofList ["return"]) true)] := by
  have hclaims : childClaims (Supertypes.ofTypes nestedSupertypes) termBlock =
      [⟨"name", "name", .ofList ["name"]⟩, ⟨"term_children", "_term", .ofList ["call"]⟩,
        ⟨"statement", "_statement", .ofList ["return"]⟩] := by cbv
  have hslots : accessorSlots (Supertypes.ofTypes nestedSupertypes) termBlock =
      [("name", .children (.ofList ["name"]) true),
        ("term_children", .children (.ofList ["call"]) true),
        ("statement", .children (.ofList ["return"]) true)] := by
    rw [accessorSlots, hclaims]
    rfl
  obtain ⟨shares, hshares⟩ := exists_childPartition nestedSupertypes termBlock _ rfl
  exact ⟨_, shares, rfl, hshares, hshares.slots.symm.trans hslots⟩

end Grammar

end SourceOutline
