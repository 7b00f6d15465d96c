import Mathlib.Data.List.Permutation
import SourceOutline.Proofs.Grammar.Lookup

/-
  The features of a derived entity beside the slots of its node type.

  The names of the properties and relations are those of the fields and the accessors
  (`featureNames_perm`), and all of them differ (`featureNames_nodup`), in every entity of a derived
  metamodel (`features_distinct_of_mem_derive`). Each feature has its slot: `slotUnder_fieldSlots`
  for a field, `slotUnder_accessorSlots_claim` and `slotUnder_accessorSlots_text` for an accessor.
-/

namespace SourceOutline.Grammar

/-! ## The features of an entity and the slots of its node type -/

variable {s : Supertypes} {t : NodeType}

theorem mem_properties_entityOf {p : Property} :
    p ∈ (entityOf s t).properties ↔
      (∃ f ∈ t.fields.toList, holdsTokens f.2 = true ∧ p = ⟨f.1, .ofMultiple f.2.multiple⟩) ∨
        (isLeaf t = true ∧ p = ⟨textProperty, .single⟩) := by
  simp only [entityOf, fieldProperties, List.mem_append, List.mem_map, List.mem_filter]
  refine or_congr ?_ ?_
  · constructor
    · rintro ⟨f, ⟨hf, ht⟩, rfl⟩
      exact ⟨f, hf, ht, rfl⟩
    · rintro ⟨f, hf, ht, rfl⟩
      exact ⟨f, ⟨hf, ht⟩, rfl⟩
  · cases isLeaf t <;> simp

theorem mem_relations_entityOf {r : Relation} :
    r ∈ (entityOf s t).relations ↔
      (∃ f ∈ t.fields.toList, holdsTokens f.2 = false ∧
        r = ⟨f.1, .ofMultiple f.2.multiple, namedKinds f.2.types⟩) ∨
      ∃ c ∈ childClaims s t, r = ⟨c.name, .ofMultiple (childrenMultiple t), [c.target]⟩ := by
  simp only [entityOf, fieldRelations, List.mem_append, List.mem_map, List.mem_filter]
  refine or_congr ?_ ?_
  · constructor
    · rintro ⟨f, ⟨hf, ht⟩, rfl⟩
      exact ⟨f, hf, by simpa using ht, rfl⟩
    · rintro ⟨f, hf, ht, rfl⟩
      exact ⟨f, ⟨hf, by simpa using ht⟩, rfl⟩
  · constructor
    · rintro ⟨c, hc, rfl⟩
      exact ⟨c, hc, rfl⟩
    · rintro ⟨c, hc, rfl⟩
      exact ⟨c, hc, rfl⟩

theorem mem_map_fst_accessorSlots {name : String} :
    name ∈ (accessorSlots s t).map Prod.fst ↔
      (∃ c ∈ childClaims s t, c.name = name) ∨ (isLeaf t = true ∧ name = textProperty) := by
  simp only [accessorSlots, List.map_append, List.mem_append, List.map_map, List.mem_map,
    Function.comp]
  refine or_congr Iff.rfl ?_
  cases isLeaf t <;> simp [eq_comm]

/-- The features of an entity are the fields and the accessors of its node type. -/
theorem featureNames_perm (s : Supertypes) (t : NodeType) :
    (entityOf s t).featureNames.Perm
      (t.fields.toList.map Prod.fst ++ (accessorSlots s t).map Prod.fst) := by
  have hfields : ((t.fields.toList.filter fun f => holdsTokens f.2).map Prod.fst ++
      (t.fields.toList.filter fun f => !holdsTokens f.2).map Prod.fst).Perm
        (t.fields.toList.map Prod.fst) := by
    rw [← List.map_append]
    exact (List.filter_append_perm _ _).map _
  have haccessors : (accessorSlots s t).map Prod.fst =
      (childClaims s t).map ChildClaim.name ++ if isLeaf t then [textProperty] else [] := by
    cases h : isLeaf t <;> simp [accessorSlots, h]
  have hnames : (entityOf s t).featureNames =
      ((t.fields.toList.filter fun f => holdsTokens f.2).map Prod.fst ++
        if isLeaf t then [textProperty] else []) ++
      ((t.fields.toList.filter fun f => !holdsTokens f.2).map Prod.fst ++
        (childClaims s t).map ChildClaim.name) := by
    cases h : isLeaf t <;>
      simp [Entity.featureNames, entityOf, fieldProperties, fieldRelations, h, Function.comp_def]
  rw [hnames, haccessors]
  -- the text property stands before the relations, its slot behind the claims
  refine List.Perm.trans ?_ (hfields.append_right _)
  rw [List.append_assoc, List.append_assoc]
  refine List.Perm.append_left _ ?_
  exact List.perm_append_comm.trans (by rw [List.append_assoc])

theorem mem_featureNames_entityOf {name : String} :
    name ∈ (entityOf s t).featureNames ↔
      name ∈ t.fields.toList.map Prod.fst ∨ name ∈ (accessorSlots s t).map Prod.fst :=
  (featureNames_perm s t).mem_iff.trans List.mem_append

theorem slotUnder_fieldSlots_eq_none_iff {name : String} :
    slotUnder name (fieldSlots t) = none ↔ name ∉ t.fields.toList.map Prod.fst := by
  rw [slotUnder_eq_none_iff, map_fst_fieldSlots]

theorem slotUnder_fieldSlots {f : String × ChildSpec} (hf : f ∈ t.fields.toList) :
    slotUnder f.1 (fieldSlots t) = some (fieldSlot f.2) :=
  slotUnder_of_mem (fieldSlots_names_nodup t) (List.mem_map_of_mem hf)

theorem slotUnder_accessorSlots_claim {c : ChildClaim} (hc : c ∈ childClaims s t) :
    slotUnder c.name (accessorSlots s t) = some (.children c.kinds (childrenMultiple t)) := by
  refine slotUnder_of_mem (accessorSlots_names_nodup s t) ?_
  exact List.mem_append_left _ (List.mem_map.2 ⟨c, hc, rfl⟩)

theorem slotUnder_accessorSlots_text (h : isLeaf t = true) :
    slotUnder textProperty (accessorSlots s t) = some .text := by
  simp [accessorSlots_of_isLeaf s h, slotUnder_cons]

/-- No name is both a field and an accessor of a node type. -/
theorem not_mem_accessorSlots_of_mem_fields {name : String}
    (h : name ∈ t.fields.toList.map Prod.fst) : name ∉ (accessorSlots s t).map Prod.fst := by
  rw [mem_map_fst_accessorSlots]
  rintro (⟨c, hc, rfl⟩ | ⟨hl, -⟩)
  · exact name_not_mem_fields_of_mem_childClaims hc h
  · simp [fields_eq_nil_of_isLeaf hl] at h

theorem field_unique {name : String} {a b : ChildSpec} (ha : (name, a) ∈ t.fields.toList)
    (hb : (name, b) ∈ t.fields.toList) : a = b := by
  have hab := Keyed.find?_of_mem t.fields.nodup_keys ha
  rw [Keyed.find?_of_mem t.fields.nodup_keys hb] at hab
  exact (Prod.mk.inj (Option.some.inj hab)).2.symm

/-- The features of an entity have names of their own. -/
theorem featureNames_nodup (s : Supertypes) (t : NodeType) :
    (entityOf s t).featureNames.Nodup := by
  rw [(featureNames_perm s t).nodup_iff]
  refine List.nodup_append.2 ⟨t.fields.nodup_keys, accessorSlots_names_nodup s t, ?_⟩
  intro a ha b hb hab
  exact not_mem_accessorSlots_of_mem_fields ha (hab ▸ hb)

/-- In an entity that is derived from some node types no two features have one name, so that each
    is found by its name, and no name is that of a property and of a relation. -/
theorem features_distinct_of_mem_derive (types : List NodeType) (e : Entity)
    (he : e ∈ (derive types).1.entities) :
    e.featureNames.Nodup ∧
      (∀ p ∈ e.properties, e.property? p.name = some p) ∧
      (∀ r ∈ e.relations, e.relation? r.name = some r) ∧
      ∀ p ∈ e.properties, ∀ r ∈ e.relations, p.name ≠ r.name := by
  obtain ⟨before, t, -, -, rfl⟩ := exists_lastOfKind_of_entity? (Metamodel.entity?_of_mem he)
  have hnodup := featureNames_nodup (Supertypes.ofTypes types) t
  obtain ⟨hproperties, hrelations, hapart⟩ := List.nodup_append.1 hnodup
  refine ⟨hnodup, ?_, ?_, ?_⟩
  · intro p hp
    exact Keyed.find?_of_mem hproperties hp
  · intro r hr
    exact Keyed.find?_of_mem hrelations hr
  · intro p hp r hr
    exact hapart _ (List.mem_map_of_mem hp) _ (List.mem_map_of_mem hr)

/-- Fields named as a child relation would be, and children whose kinds differ in their leading
    underscores alone. -/
def clashingKind : NodeType where
  kind := "p"
  named := true
  fields := .ofList [("x", ⟨false, true, [⟨"+", false⟩]⟩),
    ("x_children", ⟨false, true, [⟨"x", true⟩]⟩)]
  children := some ⟨true, false, [⟨"__x", true⟩, ⟨"x_children", true⟩, ⟨"_x", true⟩]⟩

/-- A kind that is described twice. -/
def clashingNames : List NodeType := [{ kind := "p", named := true }, clashingKind]

theorem features_distinct_of_mem_derive_clashingNames :
    ∃ e ∈ (derive clashingNames).1.entities, e.featureNames.Nodup ∧
      e.featureNames = ["x", "x_children", "x_children_2", "x_children_children", "x_children_3"] ∧
      e.relation? "x_children_3" = some ⟨"x_children_3", .multiple, ["_x"]⟩ := by
  have hclaims : childClaims (Supertypes.ofTypes clashingNames) clashingKind =
      [⟨"x_children_2", "__x", .ofList ["__x"]⟩,
        ⟨"x_children_children", "x_children", .ofList ["x_children"]⟩,
        ⟨"x_children_3", "_x", .ofList ["_x"]⟩] := by cbv
  have hlast : LastOfKind clashingNames [{ kind := "p", named := true }] clashingKind :=
    ⟨[], rfl, by simp⟩
  have hentity : (derive clashingNames).1.entity? "p" = some ⟨"p", [⟨"x", .single⟩],
      [⟨"x_children", .single, ["x"]⟩, ⟨"x_children_2", .multiple, ["__x"]⟩,
        ⟨"x_children_children", .multiple, ["x_children"]⟩,
        ⟨"x_children_3", .multiple, ["_x"]⟩]⟩ := by
    refine hlast.entity?.trans ?_
    rw [entityOf, hclaims]
    rfl
  have he := Metamodel.mem_of_entity? hentity
  obtain ⟨hnodup, -, hrelation, -⟩ := features_distinct_of_mem_derive clashingNames _ he
  exact ⟨_, he, hnodup, rfl, hrelation ⟨"x_children_3", .multiple, ["_x"]⟩ (by simp)⟩

end SourceOutline.Grammar
