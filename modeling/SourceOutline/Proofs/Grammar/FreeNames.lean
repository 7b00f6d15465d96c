import Mathlib.Algebra.Group.Nat.Defs
import Mathlib.Data.List.Nodup
import Mathlib.Data.List.Perm.Subperm
import Mathlib.Data.List.Permutation
import Mathlib.Data.Nat.Find
import SourceOutline.Proofs.Grammar.ChildClaims

/-
  The names that relations for children are given.

  A relation is named after the kind that it leads to, and where a feature of the entity has that
  name already, by the first candidate that none of them has (`freeFeatureName?_eq_first`). There is
  such a candidate among as many of them as the entity has features, and one more. The candidates
  are numbered by signed words of 32 bits, so this is so for an entity of fewer than 2 ^ 31
  features; one that has the first 2 ^ 31 candidates for its features is given a negative number
  (`freeFeatureName?_crowdedEntity`).

  The search knows nothing of the taken names but which they are (`freeName_congr`). So what the
  claims on the children keep of the entity, a list of names in some order, is enough
  (`name_eq_freeName_entityWith`).
-/

namespace SourceOutline

/-- Neither a property nor a relation of the entity has the name. -/
def Entity.IsFree (e : Entity) (name : String) : Prop :=
  e.property? name = none ∧ e.relation? name = none

theorem Entity.isFree_iff {e : Entity} {name : String} :
    e.IsFree name ↔ name ∉ e.featureNames := by
  unfold Entity.IsFree Entity.property? Entity.relation? Entity.featureNames
  rw [List.mem_append, not_or]
  exact and_congr Keyed.find?_eq_none_iff Keyed.find?_eq_none_iff

namespace Grammar

/-! ## The candidates -/

/-- The `i`-th name to try, counted without a limit: the base, then `_children` after it, then that
    numbered from 2. -/
def candidate (base : String) : Nat → String
  | 0 => base
  | 1 => base ++ "_children"
  | i + 2 => base ++ "_children_" ++ toString (i + 2)

theorem toString_nat_injective {m n : Nat} (h : toString m = toString n) : m = n := by
  have hd : Nat.toDigits 10 m = Nat.toDigits 10 n := by
    rw [← Nat.toList_repr, ← Nat.toList_repr]
    exact congrArg String.toList h
  rw [← Nat.ofDigitChars_ten_toDigits (n := m), hd, Nat.ofDigitChars_ten_toDigits]

theorem candidate_injective (base : String) : Function.Injective (candidate base) := by
  intro i j h
  have hl := congrArg String.length h
  have h9 : "_children".length = 9 := by decide
  have h10 : "_children_".length = 10 := by decide
  -- up to the numbered ones each candidate is longer than the one before
  match i, j with
  | 0, 0 => rfl
  | 1, 1 => rfl
  | 0, 1 | 1, 0 | 0, j + 2 | i + 2, 0 | 1, j + 2 | i + 2, 1 =>
    simp only [candidate, String.length_append] at hl
    omega
  | i + 2, j + 2 =>
    simp only [candidate] at h
    exact toString_nat_injective ((String.append_right_inj _).1 h)

/-- The candidates all differ, so one more of them than there are taken names holds a free one. -/
theorem exists_candidate_not_mem (taken : List String) (base : String) :
    ∃ i ≤ taken.length, candidate base i ∉ taken := by
  by_contra hnone
  have hall : ∀ i ≤ taken.length, candidate base i ∈ taken := by
    intro i hi
    by_contra hfree
    exact hnone ⟨i, hi, hfree⟩
  have hnodup : ((List.range (taken.length + 1)).map (candidate base)).Nodup :=
    List.nodup_range.map (candidate_injective base)
  have hsub : (List.range (taken.length + 1)).map (candidate base) ⊆ taken := by
    intro name hname
    obtain ⟨i, hi, rfl⟩ := List.mem_map.1 hname
    exact hall i (Nat.lt_succ_iff.1 (List.mem_range.1 hi))
  have hle := (List.subperm_of_subset hnodup hsub).length_le
  rw [List.length_map, List.length_range] at hle
  omega

/-- The `k`-th candidate is the first that is not taken. -/
structure FirstFree (taken : List String) (base : String) (k : Nat) : Prop where
  free : candidate base k ∉ taken
  tried : ∀ j < k, candidate base j ∈ taken

theorem exists_firstFree (taken : List String) (base : String) :
    ∃ k ≤ taken.length, FirstFree taken base k := by
  have hsome : ∃ i, candidate base i ∉ taken := by
    obtain ⟨i, -, hi⟩ := exists_candidate_not_mem taken base
    exact ⟨i, hi⟩
  obtain ⟨i, hle, hfree⟩ := exists_candidate_not_mem taken base
  refine ⟨Nat.find hsome, Nat.le_trans (Nat.find_min' hsome hfree) hle, Nat.find_spec hsome, ?_⟩
  intro j hj
  exact not_not.1 (Nat.find_min hsome hj)

/-! ## The search -/

theorem numbered_ofNat {i : Nat} (h : i < 2 ^ 31) (base : String) :
    numbered base (.ofNat i) = base ++ "_children_" ++ toString i := by
  have hint : (Int32.ofNat i).toInt = i := Int32.toInt_ofNat_of_lt h
  show base ++ "_children_" ++ toString (Int32.ofNat i).toInt = _
  rw [hint]
  rfl

/-- Below 2 ^ 31 the number of a candidate is its place. -/
theorem candidate_eq_numbered {i : Nat} (htwo : 2 ≤ i) (h : i < 2 ^ 31) (base : String) :
    candidate base i = numbered base (.ofNat i) := by
  obtain ⟨i, rfl⟩ : ∃ k, i = k + 2 := ⟨i - 2, by omega⟩
  rw [numbered_ofNat h, candidate]

theorem freeNumbered?_of_mem {taken : List String} {base : String} {n : Int32}
    (h : numbered base n ∈ taken) :
    freeNumbered? taken base n = freeNumbered? taken base (n + 1) := by
  rw [freeNumbered?, if_pos h]

theorem freeNumbered?_of_not_mem {taken : List String} {base : String} {n : Int32}
    (h : numbered base n ∉ taken) : freeNumbered? taken base n = some (numbered base n) := by
  rw [freeNumbered?, if_neg h]

/-- Taken candidates are passed over, up to the greatest number and one step beyond it. -/
theorem freeNumbered?_two {taken : List String} {base : String} {i : Nat} (htwo : 2 ≤ i)
    (hle : i ≤ 2 ^ 31) (htaken : ∀ j, 2 ≤ j → j < i → candidate base j ∈ taken) :
    freeNumbered? taken base 2 = freeNumbered? taken base (.ofNat i) := by
  induction i, htwo using Nat.le_induction with
  | base => rfl
  | succ i htwo ih =>
    have hi : candidate base i ∈ taken := htaken i htwo (Nat.lt_succ_self i)
    rw [candidate_eq_numbered htwo (by omega)] at hi
    rw [ih (by omega) fun j hj hji => htaken j hj (by omega), freeNumbered?_of_mem hi,
      Int32.ofNat_add]
    rfl

/-- The search passes over all that is taken among the first 2 ^ 31 candidates. -/
theorem freeName?_of_taken {taken : List String} {base : String} {i : Nat} (htwo : 2 ≤ i)
    (hle : i ≤ 2 ^ 31) (htaken : ∀ j < i, candidate base j ∈ taken) :
    freeName? taken base = freeNumbered? taken base (.ofNat i) := by
  have hbase : base ∈ taken := htaken 0 (by omega)
  have hchildren : base ++ "_children" ∈ taken := htaken 1 (by omega)
  rw [freeName?, if_neg (not_not.2 hbase), if_neg (not_not.2 hchildren)]
  exact freeNumbered?_two htwo hle fun j _ hj => htaken j hj

/-- A search ends at the first free candidate if that is one of the first 2 ^ 31. -/
theorem FirstFree.freeName?_eq {taken : List String} {base : String} {k : Nat}
    (h : FirstFree taken base k) (hlt : k < 2 ^ 31) :
    freeName? taken base = some (candidate base k) := by
  match k, h with
  | 0, h => exact if_pos h.free
  | 1, h =>
    have hbase : base ∈ taken := h.tried 0 (by omega)
    rw [freeName?, if_neg (not_not.2 hbase)]
    exact if_pos h.free
  | k + 2, h =>
    have hfree : numbered base (.ofNat (k + 2)) ∉ taken := by
      rw [← candidate_eq_numbered (by omega) hlt]
      exact h.free
    rw [freeName?_of_taken (by omega) (Nat.le_of_lt hlt) h.tried, freeNumbered?_of_not_mem hfree,
      candidate_eq_numbered (by omega) hlt]

/-! ## Taken names as a set -/

section Congruence

variable {taken taken' : List String} (hsame : ∀ name, name ∈ taken ↔ name ∈ taken')
include hsame

theorem freeNumbered?_le {base name : String} {n : Int32}
    (h : freeNumbered? taken base n = some name) : freeNumbered? taken' base n = some name := by
  refine freeNumbered?.partial_correctness taken
    (fun base n name => freeNumbered? taken' base n = some name) ?_ base n name h
  intro search hsearch base n name hname
  split at hname
  · next hmem =>
    rw [freeNumbered?_of_mem ((hsame _).1 hmem)]
    exact hsearch base (n + 1) name hname
  · next hfree =>
    rw [freeNumbered?_of_not_mem fun hmem => hfree ((hsame _).2 hmem)]
    exact hname

theorem freeNumbered?_congr (base : String) (n : Int32) :
    freeNumbered? taken base n = freeNumbered? taken' base n :=
  Option.ext fun _ => ⟨freeNumbered?_le hsame, freeNumbered?_le fun name => (hsame name).symm⟩

theorem spareName_congr : spareName taken = spareName taken' := by
  have hle : ∀ {l l' : List String}, (∀ name ∈ l, name ∈ l') →
      (l.map String.length).foldr max 0 ≤ (l'.map String.length).foldr max 0 := by
    intro l l' hsub
    induction l with
    | nil => exact Nat.zero_le _
    | cons name l ih =>
      have hrest := ih fun other hother => hsub other (List.mem_cons_of_mem _ hother)
      exact Nat.max_le.2 ⟨length_le_foldr_max (hsub name List.mem_cons_self), hrest⟩
  have heq := Nat.le_antisymm (hle fun name => (hsame name).1) (hle fun name => (hsame name).2)
  rw [spareName, spareName, heq]

/-- Which name is free depends on the set of taken names alone. -/
theorem freeName_congr (base : String) : freeName taken base = freeName taken' base := by
  simp only [freeName, freeName?, hsame, freeNumbered?_congr hsame, spareName_congr hsame]

end Congruence

/-! ## The entity while its relations are named -/

/-- What there is of the entity of a node type once some claims on its children have their
    relations. -/
def entityWith (t : NodeType) (done : List ChildClaim) : Entity where
  name := t.kind
  properties := fieldProperties t.fields
  relations := fieldRelations t.fields ++ done.map fun c =>
    ⟨c.name, .ofMultiple (childrenMultiple t), [c.target]⟩

theorem mem_featureNames_entityWith {t : NodeType} {done : List ChildClaim} {name : String} :
    name ∈ (entityWith t done).featureNames ↔
      name ∈ done.map ChildClaim.name ∨ name ∈ t.fields.toList.map Prod.fst := by
  have hfields : name ∈ t.fields.toList.map Prod.fst ↔
      name ∈ (fieldProperties t.fields).map Property.name ∨
        name ∈ (fieldRelations t.fields).map Relation.name := by
    simp only [fieldProperties, fieldRelations, List.map_map, List.mem_map, List.mem_filter]
    constructor
    · rintro ⟨f, hf, rfl⟩
      cases htokens : holdsTokens f.2 with
      | true => exact .inl ⟨f, ⟨hf, htokens⟩, rfl⟩
      | false => exact .inr ⟨f, ⟨hf, by rw [htokens]; rfl⟩, rfl⟩
    · rintro (⟨f, ⟨hf, -⟩, rfl⟩ | ⟨f, ⟨hf, -⟩, rfl⟩) <;> exact ⟨f, hf, rfl⟩
  have hdone : (done.map fun c =>
      (⟨c.name, .ofMultiple (childrenMultiple t), [c.target]⟩ : Relation)).map Relation.name =
        done.map ChildClaim.name := by
    rw [List.map_map]
    rfl
  rw [hfields, Entity.featureNames, entityWith, List.map_append, hdone, List.mem_append,
    List.mem_append, ← or_assoc, or_comm]

/-- Where there are claims, the entity is complete when all of them have their relations. -/
theorem entityOf_eq_entityWith {s : Supertypes} {t : NodeType} (h : childClaims s t ≠ []) :
    entityOf s t = entityWith t (childClaims s t) := by
  have hleaf : isLeaf t = false := by
    cases hchildren : t.children with
    | none => exact absurd (childClaims_eq_nil hchildren) h
    | some spec => simp [isLeaf, hchildren]
  simp [entityOf, entityWith, hleaf]

/-- Every claim is named apart from those before it and from what was taken at the start. -/
theorem name_eq_freeName {s : Supertypes} {taken : List String} {claimed : NameSet}
    {kinds : List String} (before : List ChildClaim) {after : List ChildClaim} {c : ChildClaim}
    (h : claims s taken claimed kinds = before ++ c :: after) :
    c.name = freeName ((before.map ChildClaim.name).reverse ++ taken)
      (stripUnderscores c.target) := by
  fun_induction claims s taken claimed kinds generalizing before with
  | case1 => simp at h
  | case2 taken claimed kind rest own hempty ih => exact ih before h
  | case3 taken claimed kind rest own hempty name ih =>
    cases before with
    | nil =>
      obtain ⟨rfl, -⟩ := List.cons.inj h
      rfl
    | cons b before =>
      obtain ⟨rfl, hrest⟩ := List.cons.inj h
      rw [ih before hrest, List.map_cons, List.reverse_cons, List.append_assoc,
        List.singleton_append]

/-- The relation of a claim has a name that is free in the entity as far as it has come. -/
theorem name_eq_freeName_entityWith {s : Supertypes} {t : NodeType}
    {before after : List ChildClaim} {c : ChildClaim}
    (h : childClaims s t = before ++ c :: after) :
    c.name = freeName (entityWith t before).featureNames (stripUnderscores c.target) := by
  unfold childClaims at h
  split at h
  · simp at h
  · rw [name_eq_freeName before h]
    refine freeName_congr (fun name => ?_) _
    rw [mem_featureNames_entityWith, List.mem_append, List.mem_reverse]

/-- For an entity of fewer than 2 ^ 31 features the search for a further name ends, at the first
    candidate that no feature has; no more candidates are tried than there are features, and one.
    By this search the relations for the children of a node type get their names, each in the entity
    as it then is. -/
theorem freeFeatureName?_eq_first (e : Entity) (base : String)
    (hfew : e.featureNames.length < 2 ^ 31) :
    (∃ i ≤ e.featureNames.length, freeFeatureName? e base = some (candidate base i) ∧
      e.IsFree (candidate base i) ∧ ∀ j < i, ¬ e.IsFree (candidate base j)) ∧
    ∀ s t before c after, childClaims s t = before ++ c :: after → entityWith t before = e →
      stripUnderscores c.target = base →
      entityOf s t = entityWith t (before ++ c :: after) ∧
        freeFeatureName? e base = some c.name := by
  obtain ⟨i, hle, hfirst⟩ := exists_firstFree e.featureNames base
  have hname : freeFeatureName? e base = some (candidate base i) :=
    hfirst.freeName?_eq (Nat.lt_of_le_of_lt hle hfew)
  constructor
  · refine ⟨i, hle, hname, Entity.isFree_iff.2 hfirst.free, fun j hj hfree => ?_⟩
    exact Entity.isFree_iff.1 hfree (hfirst.tried j hj)
  · intro s t before c after h he hbase
    subst he hbase
    have hne : childClaims s t ≠ [] := by simp [h]
    refine ⟨h ▸ entityOf_eq_entityWith hne, ?_⟩
    have hfound : freeName? (entityWith t before).featureNames (stripUnderscores c.target) =
        some (candidate (stripUnderscores c.target) i) := hname
    rw [name_eq_freeName_entityWith h, freeName, hname, hfound, Option.getD_some]

/-- A kind with a field `x`, and children of two kinds that differ from `x` in underscores alone. -/
def underscoredKinds : NodeType where
  kind := "p"
  named := true
  fields := .ofList [("x", ⟨false, true, [⟨"+", false⟩]⟩)]
  children := some ⟨true, false, [⟨"_x", true⟩, ⟨"__x", true⟩]⟩

def firstClaim : ChildClaim := ⟨"x_children", "_x", .ofList ["_x"]⟩

def secondClaim : ChildClaim := ⟨"x_children_2", "__x", .ofList ["__x"]⟩

theorem freeFeatureName?_eq_first_underscoredKinds :
    childClaims ⟨[]⟩ underscoredKinds = [firstClaim] ++ secondClaim :: [] ∧
      (entityWith underscoredKinds [firstClaim]).featureNames.length < 2 ^ 31 ∧
      freeFeatureName? (entityWith underscoredKinds [firstClaim]) "x" = some "x_children_2" ∧
      (entityOf ⟨[]⟩ underscoredKinds).featureNames = ["x", "x_children", "x_children_2"] ∧
      ∃ i ≤ 2, (∀ j < i, ¬ (entityWith underscoredKinds [firstClaim]).IsFree (candidate "x" j)) ∧
        candidate "x" i = "x_children_2" := by
  have hclaims : childClaims ⟨[]⟩ underscoredKinds = [firstClaim] ++ secondClaim :: [] := by cbv
  have hfew : (entityWith underscoredKinds [firstClaim]).featureNames.length < 2 ^ 31 := by decide
  obtain ⟨⟨i, hle, hname, -, htried⟩, hderived⟩ :=
    freeFeatureName?_eq_first (entityWith underscoredKinds [firstClaim]) "x" hfew
  obtain ⟨hentity, hsecond⟩ := hderived _ _ _ _ _ hclaims rfl (by decide)
  refine ⟨hclaims, hfew, hsecond, ?_, i, hle, htried,
    Option.some.inj (hname.symm.trans hsecond)⟩
  rw [hentity]
  decide

/-! ## Beyond the numbers -/

/-- An entity whose features have the first 2 ^ 31 candidates for their names: `x`, `x_children`,
    and `x_children` with the numbers from 2 to 2147483647. -/
def crowdedEntity : Entity where
  name := "p"
  relations := (List.range (2 ^ 31)).map fun i => ⟨candidate "x" i, .single, []⟩

theorem mem_featureNames_crowdedEntity {name : String} :
    name ∈ crowdedEntity.featureNames ↔ ∃ i < 2 ^ 31, candidate "x" i = name := by
  have hnames : crowdedEntity.featureNames = (List.range (2 ^ 31)).map (candidate "x") := by
    rw [Entity.featureNames, crowdedEntity, List.map_nil, List.nil_append, List.map_map]
    rfl
  rw [hnames, List.mem_map]
  simp only [List.mem_range]

/-- No candidate has a negative number. -/
theorem candidate_ne_negative (i : Nat) : candidate "x" i ≠ "x_children_-2147483648" := by
  match i with
  | 0 => decide
  | 1 => decide
  | i + 2 =>
    intro h
    have hnumber : toString (i + 2) = "-2147483648" := by
      refine (String.append_right_inj "x_children_").1 ?_
      rw [candidate] at h
      exact h
    have hminus : '-' ∈ Nat.toDigits 10 (i + 2) := by
      rw [← Nat.toList_repr, show (i + 2).repr = _ from hnumber]
      decide
    exact absurd (Nat.isDigit_of_mem_toDigits (by omega) (by omega) hminus) (by decide)

/-- With the first 2 ^ 31 candidates taken the numbers wrap around, and what the search gives is no
    candidate at all, though the next candidate is free. -/
theorem freeFeatureName?_crowdedEntity :
    freeFeatureName? crowdedEntity "x" = some "x_children_-2147483648" ∧
      (∀ i, freeFeatureName? crowdedEntity "x" ≠ some (candidate "x" i)) ∧
      crowdedEntity.IsFree (candidate "x" (2 ^ 31)) ∧
      ∀ j < 2 ^ 31, ¬ crowdedEntity.IsFree (candidate "x" j) := by
  have htaken : ∀ j < 2 ^ 31, candidate "x" j ∈ crowdedEntity.featureNames :=
    fun j hj => mem_featureNames_crowdedEntity.2 ⟨j, hj, rfl⟩
  have hnegative : numbered "x" (.ofNat (2 ^ 31)) = "x_children_-2147483648" := by decide
  have hfree : numbered "x" (.ofNat (2 ^ 31)) ∉ crowdedEntity.featureNames := by
    rw [hnegative, mem_featureNames_crowdedEntity]
    rintro ⟨i, -, hi⟩
    exact candidate_ne_negative i hi
  have hname : freeFeatureName? crowdedEntity "x" = some "x_children_-2147483648" := by
    rw [freeFeatureName?, freeName?_of_taken (by omega) (Nat.le_refl _) htaken,
      freeNumbered?_of_not_mem hfree, hnegative]
  refine ⟨hname, fun i hi => ?_, ?_, fun j hj hfree => ?_⟩
  · exact candidate_ne_negative i (Option.some.inj (hi.symm.trans hname))
  · rw [Entity.isFree_iff, mem_featureNames_crowdedEntity]
    rintro ⟨i, hi, heq⟩
    exact Nat.ne_of_lt hi (candidate_injective "x" heq)
  · exact Entity.isFree_iff.1 hfree (htaken j hj)

end Grammar

end SourceOutline
