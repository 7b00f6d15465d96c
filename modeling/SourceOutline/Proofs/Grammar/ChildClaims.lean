import Mathlib.Data.List.Nodup
import Mathlib.Data.List.Pairwise
import SourceOutline.Grammar.Derive

/-
  How the children outside any field are shared out among the relations of a node type.

  * `freeName_not_mem`: a name chosen for a relation is not taken.
  * `claims_names_nodup`, `name_not_mem_of_mem_claims`: the claims have names of their own.
  * `claims_disjoint`: no kind is claimed twice.
  * `exists_mem_claims_target_iff`: a kind is claimed for the first type that stands for it.
  * `exists_mem_claims_iff`: a kind is claimed exactly if some type stands for it and it was not
    claimed before.
-/

namespace SourceOutline.Grammar

/-! ## Free names -/

theorem not_mem_of_freeNumbered? {taken : List String} {base name : String} {n : Int32}
    (h : freeNumbered? taken base n = some name) : name ∉ taken := by
  refine freeNumbered?.partial_correctness taken (fun _ _ name => name ∉ taken) ?_ base n name h
  intro search hsearch base n name hname
  split at hname
  · exact hsearch base (n + 1) name hname
  · next hfree =>
    obtain rfl := Option.some.inj hname
    exact hfree

theorem not_mem_of_freeName? {taken : List String} {base name : String}
    (h : freeName? taken base = some name) : name ∉ taken := by
  unfold freeName? at h
  split at h
  · next hfree =>
    obtain rfl := Option.some.inj h
    exact hfree
  · split at h
    · next hfree =>
      obtain rfl := Option.some.inj h
      exact hfree
    · exact not_mem_of_freeNumbered? h

theorem length_le_foldr_max {taken : List String} {name : String} (h : name ∈ taken) :
    name.length ≤ (taken.map String.length).foldr max 0 := by
  induction taken with
  | nil => simp at h
  | cons first taken ih =>
    rw [List.map_cons, List.foldr_cons]
    rcases List.mem_cons.1 h with rfl | h
    · exact Nat.le_max_left ..
    · exact Nat.le_trans (ih h) (Nat.le_max_right ..)

theorem spareName_not_mem (taken : List String) : spareName taken ∉ taken := by
  intro h
  have hle := length_le_foldr_max h
  rw [spareName, String.length_ofList, List.length_replicate] at hle
  omega

theorem freeName_not_mem (taken : List String) (base : String) : freeName taken base ∉ taken := by
  unfold freeName
  cases h : freeName? taken base with
  | some name => exact not_mem_of_freeName? h
  | none => exact spareName_not_mem taken

/-! ## Claims -/

variable {s : Supertypes} {taken : List String} {claimed : NameSet} {kinds : List String}

theorem name_not_mem_of_mem_claims {c : ChildClaim} (hc : c ∈ claims s taken claimed kinds) :
    c.name ∉ taken := by
  fun_induction claims s taken claimed kinds with
  | case1 => simp at hc
  | case2 taken claimed kind rest own hempty ih => exact ih hc
  | case3 taken claimed kind rest own hempty name ih =>
    rcases List.mem_cons.1 hc with rfl | hc
    · exact freeName_not_mem taken _
    · exact fun h => ih hc (List.mem_cons_of_mem _ h)

theorem claims_names_nodup (s : Supertypes) (taken : List String) (claimed : NameSet)
    (kinds : List String) : ((claims s taken claimed kinds).map ChildClaim.name).Nodup := by
  fun_induction claims s taken claimed kinds with
  | case1 => exact .nil
  | case2 taken claimed kind rest own hempty ih => exact ih
  | case3 taken claimed kind rest own hempty name ih =>
    rw [List.map_cons, List.nodup_cons]
    refine ⟨?_, ih⟩
    intro h
    obtain ⟨c, hc, hname⟩ := List.mem_map.1 h
    exact name_not_mem_of_mem_claims hc (by simp [hname])

theorem not_mem_claimed_of_mem_claims {c : ChildClaim} (hc : c ∈ claims s taken claimed kinds)
    {k : String} (hk : k ∈ c.kinds) : k ∉ claimed := by
  fun_induction claims s taken claimed kinds with
  | case1 => simp at hc
  | case2 taken claimed kind rest own hempty ih => exact ih hc
  | case3 taken claimed kind rest own hempty name ih =>
    rcases List.mem_cons.1 hc with rfl | hc
    · exact (NameSet.mem_diff.1 hk).2
    · exact fun h => ih hc (NameSet.mem_union.2 (.inl h))

theorem claims_disjoint (s : Supertypes) (taken : List String) (claimed : NameSet)
    (kinds : List String) :
    (claims s taken claimed kinds).Pairwise fun a b => ∀ k ∈ a.kinds, k ∉ b.kinds := by
  fun_induction claims s taken claimed kinds with
  | case1 => exact .nil
  | case2 taken claimed kind rest own hempty ih => exact ih
  | case3 taken claimed kind rest own hempty name ih =>
    refine List.pairwise_cons.2 ⟨?_, ih⟩
    intro c hc k hk hkc
    exact not_mem_claimed_of_mem_claims hc hkc (NameSet.mem_union.2 (.inr hk))

/-- A kind goes to the first type that stands for it, unless it was claimed before. -/
theorem exists_mem_claims_target_iff {k u : String} :
    (∃ c ∈ claims s taken claimed kinds, c.target = u ∧ k ∈ c.kinds) ↔
      k ∉ claimed ∧ kinds.find? (fun t => k ∈ s.expand t) = some u := by
  fun_induction claims s taken claimed kinds with
  | case1 => simp
  | case2 taken claimed kind rest own hempty ih =>
    rw [ih]
    refine and_congr_right fun hk => ?_
    -- a type left with nothing: all that it stands for has been claimed
    have hown : k ∉ s.expand kind := by
      intro h
      exact NameSet.isEmpty_iff.1 hempty k (NameSet.mem_diff.2 ⟨h, hk⟩)
    rw [List.find?_cons_of_neg (by simpa using hown)]
  | case3 taken claimed kind rest own hempty name ih =>
    have hown : k ∈ own ↔ k ∈ s.expand kind ∧ k ∉ claimed := NameSet.mem_diff
    simp only [List.mem_cons, exists_eq_or_imp, ih, hown, NameSet.mem_union, not_or, not_and,
      not_not]
    by_cases hkind : k ∈ s.expand kind
    · rw [List.find?_cons_of_pos (by simpa using hkind)]
      constructor
      · rintro (⟨rfl, -, hk⟩ | ⟨⟨hk, hclaimed⟩, -⟩)
        · exact ⟨hk, rfl⟩
        · exact absurd (hclaimed hkind) hk
      · rintro ⟨hk, hu⟩
        exact .inl ⟨Option.some.inj hu, hkind, hk⟩
    · rw [List.find?_cons_of_neg (by simpa using hkind)]
      constructor
      · rintro (⟨-, h, -⟩ | ⟨⟨hk, -⟩, hu⟩)
        · exact absurd h hkind
        · exact ⟨hk, hu⟩
      · rintro ⟨hk, hu⟩
        exact .inr ⟨⟨hk, fun h => absurd h hkind⟩, hu⟩

theorem exists_mem_claims_iff {k : String} :
    (∃ c ∈ claims s taken claimed kinds, k ∈ c.kinds) ↔
      k ∉ claimed ∧ ∃ t ∈ kinds, k ∈ s.expand t := by
  constructor
  · rintro ⟨c, hc, hk⟩
    obtain ⟨hclaimed, hfirst⟩ := exists_mem_claims_target_iff.1 ⟨c, hc, rfl, hk⟩
    exact ⟨hclaimed, c.target, List.mem_of_find?_eq_some hfirst,
      by simpa using List.find?_some hfirst⟩
  · rintro ⟨hclaimed, t, ht, hk⟩
    have hsome : (kinds.find? fun t => k ∈ s.expand t).isSome :=
      List.find?_isSome.2 ⟨t, ht, by simpa using hk⟩
    obtain ⟨u, hfirst⟩ := Option.isSome_iff_exists.1 hsome
    obtain ⟨c, hc, -, hkc⟩ := exists_mem_claims_target_iff.2 ⟨hclaimed, hfirst⟩
    exact ⟨c, hc, hkc⟩

/-! ## The claims on the children of a node type -/

theorem mem_claimOrder {types : List TypeRef} {k : String} :
    k ∈ claimOrder s types ↔ k ∈ namedKinds types := by
  unfold claimOrder
  by_cases h : s.contains k = true <;> simp [h]

theorem childClaims_eq_nil {t : NodeType} (h : t.children = none) : childClaims s t = [] := by
  simp [childClaims, h]

theorem childClaims_names_nodup (s : Supertypes) (t : NodeType) :
    ((childClaims s t).map ChildClaim.name).Nodup := by
  unfold childClaims
  split
  · exact .nil
  · exact claims_names_nodup ..

theorem childClaims_disjoint (s : Supertypes) (t : NodeType) :
    (childClaims s t).Pairwise fun a b => ∀ k ∈ a.kinds, k ∉ b.kinds := by
  unfold childClaims
  split
  · exact .nil
  · exact claims_disjoint ..

/-- A kind belongs to one claim. -/
theorem childClaim_unique {t : NodeType} {a b : ChildClaim} (ha : a ∈ childClaims s t)
    (hb : b ∈ childClaims s t) {k : String} (hka : k ∈ a.kinds) (hkb : k ∈ b.kinds) : a = b := by
  by_contra hab
  have : Std.Symm fun a b : ChildClaim => ∀ k ∈ a.kinds, k ∉ b.kinds :=
    ⟨fun _ _ h k hkb hka => h k hka hkb⟩
  exact (childClaims_disjoint s t).forall ha hb hab k hka hkb

/-- The relations for children are named apart from the fields. -/
theorem name_not_mem_fields_of_mem_childClaims {t : NodeType} {c : ChildClaim}
    (hc : c ∈ childClaims s t) : c.name ∉ t.fields.toList.map Prod.fst := by
  unfold childClaims at hc
  split at hc
  · simp at hc
  · exact name_not_mem_of_mem_claims hc

/-- A kind is claimed if and only if some named type among the children stands for it. -/
theorem exists_mem_childClaims_iff {t : NodeType} {k : String} :
    (∃ c ∈ childClaims s t, k ∈ c.kinds) ↔
      ∃ spec, t.children = some spec ∧ ∃ r ∈ namedKinds spec.types, k ∈ s.expand r := by
  unfold childClaims
  cases t.children with
  | none => simp
  | some spec => simp [exists_mem_claims_iff, mem_claimOrder]

end SourceOutline.Grammar
