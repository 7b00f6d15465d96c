import SourceOutline.Proofs.Grammar.Features

/-
  When the metamodel and the slot table of a grammar agree (`Agrees`): every declared feature finds
  a slot that serves it, and every slot bears the name of a declared feature.

  The entity of a kind is that of its last node type, but slots of earlier node types of the kind
  stay where the last one does not replace them. Such a stray slot does no harm only if it bears
  the name of a feature that is looked up elsewhere first, or serves the feature that finds it
  (`StraysFit`). That is exactly when the two agree (`agrees_derive_iff`), and it holds whenever no
  two named node types have one kind (`straysFit_of_distinctKinds`). It fails for two node types of
  one kind of which the first alone has a field (`not_agrees_replacedField`).
-/

namespace SourceOutline

/-! ## Agreement -/

/-- A property of a multiplicity can be read off a slot. -/
def Slot.ServesProperty : Slot → Multiplicity → Prop
  | .field multiple tokens, m => tokens = true ∧ m = .ofMultiple multiple
  | .children _ _, _ => False
  | .text, m => m = .single

/-- A relation of a multiplicity can be read off a slot. -/
def Slot.ServesRelation : Slot → Multiplicity → Prop
  | .field multiple tokens, m => tokens = false ∧ m = .ofMultiple multiple
  | .children _ multiple, m => m = .ofMultiple multiple
  | .text, _ => False

/-- Properties are looked up as accessors first. -/
def SlotTable.propertySlot? (table : SlotTable) (rule name : String) : Option Slot :=
  (table.accessor? rule name).or (table.field? rule name)

/-- Relations are looked up as fields first. -/
def SlotTable.relationSlot? (table : SlotTable) (rule name : String) : Option Slot :=
  (table.field? rule name).or (table.accessor? rule name)

structure Agrees (m : Metamodel) (table : SlotTable) : Prop where
  property : ∀ e ∈ m.entities, ∀ p ∈ e.properties,
    ∃ slot, table.propertySlot? e.name p.name = some slot ∧ slot.ServesProperty p.multiplicity
  relation : ∀ e ∈ m.entities, ∀ r ∈ e.relations,
    ∃ slot, table.relationSlot? e.name r.name = some slot ∧ slot.ServesRelation r.multiplicity
  declared : ∀ rule name,
    (table.field? rule name).isSome ∨ (table.accessor? rule name).isSome →
      ∃ e, m.entity? rule = some e ∧ name ∈ e.featureNames

namespace Grammar

variable {types before : List NodeType} {t : NodeType}

/-! ## The slots of features -/

theorem field?_of_own (h : LastOfKind types before t) {f : String × ChildSpec}
    (hf : f ∈ t.fields.toList) : (derive types).2.field? t.kind f.1 = some (fieldSlot f.2) := by
  rw [h.field?, slotUnder_fieldSlots hf, Option.some_or]

theorem field?_of_stray (h : LastOfKind types before t) {name : String}
    (hn : name ∉ t.fields.toList.map Prod.fst) :
    (derive types).2.field? t.kind name = latest fieldSlots t.kind name before := by
  rw [h.field?, slotUnder_fieldSlots_eq_none_iff.2 hn, Option.none_or]

theorem accessor?_of_stray (h : LastOfKind types before t) {name : String}
    (hn : name ∉ (accessorSlots (Supertypes.ofTypes types) t).map Prod.fst) :
    (derive types).2.accessor? t.kind name =
      latest (accessorSlots (Supertypes.ofTypes types)) t.kind name before := by
  rw [h.accessor?, slotUnder_eq_none_iff.2 hn, Option.none_or]

theorem relationSlot?_field (h : LastOfKind types before t) {f : String × ChildSpec}
    (hf : f ∈ t.fields.toList) :
    (derive types).2.relationSlot? t.kind f.1 = some (fieldSlot f.2) := by
  rw [SlotTable.relationSlot?, field?_of_own h hf, Option.some_or]

/-- A stray field comes before the slot of a claim. -/
theorem relationSlot?_claim (h : LastOfKind types before t) {c : ChildClaim}
    (hc : c ∈ childClaims (Supertypes.ofTypes types) t) :
    (derive types).2.relationSlot? t.kind c.name =
      (latest fieldSlots t.kind c.name before).or
        (some (.children c.kinds (childrenMultiple t))) := by
  rw [SlotTable.relationSlot?, field?_of_stray h (name_not_mem_fields_of_mem_childClaims hc),
    h.accessor?, slotUnder_accessorSlots_claim hc, Option.some_or]

/-- A stray accessor comes before the slot of a field. -/
theorem propertySlot?_field (h : LastOfKind types before t) {f : String × ChildSpec}
    (hf : f ∈ t.fields.toList) :
    (derive types).2.propertySlot? t.kind f.1 =
      (latest (accessorSlots (Supertypes.ofTypes types)) t.kind f.1 before).or
        (some (fieldSlot f.2)) := by
  have hn := not_mem_accessorSlots_of_mem_fields (s := Supertypes.ofTypes types)
    (List.mem_map_of_mem hf)
  rw [SlotTable.propertySlot?, accessor?_of_stray h hn, field?_of_own h hf]

theorem propertySlot?_text (h : LastOfKind types before t) (hl : isLeaf t = true) :
    (derive types).2.propertySlot? t.kind textProperty = some .text := by
  rw [SlotTable.propertySlot?, h.accessor?, slotUnder_accessorSlots_text hl, Option.some_or,
    Option.some_or]

/-! ## Stray slots -/

/-- The slots that earlier node types of a kind have left are harmless. A stray field must bear the
    name of a text property, which is looked up as an accessor, or of a child relation that it
    serves. A stray accessor must bear the name of a field, and if that is a property, serve it. -/
structure StraysFit (types : List NodeType) : Prop where
  fields : ∀ before t, LastOfKind types before t → ∀ name slot,
    name ∉ t.fields.toList.map Prod.fst → latest fieldSlots t.kind name before = some slot →
      (isLeaf t = true ∧ name = textProperty) ∨
        ((∃ c ∈ childClaims (Supertypes.ofTypes types) t, c.name = name) ∧
          slot.ServesRelation (.ofMultiple (childrenMultiple t)))
  accessors : ∀ before t, LastOfKind types before t → ∀ name slot,
    name ∉ (accessorSlots (Supertypes.ofTypes types) t).map Prod.fst →
    latest (accessorSlots (Supertypes.ofTypes types)) t.kind name before = some slot →
      ∃ spec, (name, spec) ∈ t.fields.toList ∧
        (holdsTokens spec = true → slot.ServesProperty (.ofMultiple spec.multiple))

theorem entityOf_mem_entities (h : LastOfKind types before t) :
    entityOf (Supertypes.ofTypes types) t ∈ (derive types).1.entities :=
  Metamodel.mem_of_entity? h.entity?

theorem straysFit_of_agrees (h : Agrees (derive types).1 (derive types).2) :
    StraysFit types where
  fields := by
    intro before t hlast name slot hn hslot
    have hfield := field?_of_stray hlast hn
    rw [hslot] at hfield
    obtain ⟨e, he, hname⟩ := h.declared t.kind name (.inl (by simp [hfield]))
    rw [hlast.entity?] at he
    obtain rfl := Option.some.inj he
    rw [mem_featureNames_entityOf, mem_map_fst_accessorSlots] at hname
    rcases hname with hname | ⟨c, hc, rfl⟩ | hleaf
    · exact absurd hname hn
    · -- the relation of the claim is looked up as a field first and finds the stray
      obtain ⟨found, hfound, hserves⟩ := h.relation _ (entityOf_mem_entities hlast) _
        (mem_relations_entityOf.2 (.inr ⟨c, hc, rfl⟩))
      simp only [SlotTable.relationSlot?, entityOf, hfield, Option.some_or] at hfound
      obtain rfl := Option.some.inj hfound
      exact .inr ⟨⟨c, hc, rfl⟩, hserves⟩
    · exact .inl hleaf
  accessors := by
    intro before t hlast name slot hn hslot
    have haccessor := accessor?_of_stray hlast hn
    rw [hslot] at haccessor
    obtain ⟨e, he, hname⟩ := h.declared t.kind name (.inr (by simp [haccessor]))
    rw [hlast.entity?] at he
    obtain rfl := Option.some.inj he
    rcases mem_featureNames_entityOf.1 hname with hname | hname
    · obtain ⟨⟨name, spec⟩, hf, rfl⟩ := List.mem_map.1 hname
      refine ⟨spec, hf, fun htokens => ?_⟩
      -- the property of the field is looked up as an accessor first and finds the stray
      obtain ⟨found, hfound, hserves⟩ := h.property _ (entityOf_mem_entities hlast) _
        (mem_properties_entityOf.2 (.inl ⟨_, hf, htokens, rfl⟩))
      simp only [SlotTable.propertySlot?, entityOf, haccessor, Option.some_or] at hfound
      obtain rfl := Option.some.inj hfound
      exact hserves
    · exact absurd hname hn

theorem propertySlot?_of_straysFit (h : StraysFit types) (hlast : LastOfKind types before t)
    {p : Property} (hp : p ∈ (entityOf (Supertypes.ofTypes types) t).properties) :
    ∃ slot, (derive types).2.propertySlot? t.kind p.name = some slot ∧
      slot.ServesProperty p.multiplicity := by
  rcases mem_properties_entityOf.1 hp with ⟨f, hf, htokens, rfl⟩ | ⟨hl, rfl⟩
  · rw [propertySlot?_field hlast hf]
    cases hstray : latest (accessorSlots (Supertypes.ofTypes types)) t.kind f.1 before with
    | none => exact ⟨fieldSlot f.2, rfl, htokens, rfl⟩
    | some slot =>
      have hn := not_mem_accessorSlots_of_mem_fields (s := Supertypes.ofTypes types)
        (List.mem_map_of_mem hf)
      obtain ⟨spec, hspec, hserves⟩ := h.accessors before t hlast _ _ hn hstray
      obtain rfl : f.2 = spec := field_unique hf hspec
      exact ⟨slot, rfl, hserves htokens⟩
  · exact ⟨.text, propertySlot?_text hlast hl, rfl⟩

theorem relationSlot?_of_straysFit (h : StraysFit types) (hlast : LastOfKind types before t)
    {r : Relation} (hr : r ∈ (entityOf (Supertypes.ofTypes types) t).relations) :
    ∃ slot, (derive types).2.relationSlot? t.kind r.name = some slot ∧
      slot.ServesRelation r.multiplicity := by
  rcases mem_relations_entityOf.1 hr with ⟨f, hf, htokens, rfl⟩ | ⟨c, hc, rfl⟩
  · exact ⟨fieldSlot f.2, relationSlot?_field hlast hf, htokens, rfl⟩
  · rw [relationSlot?_claim hlast hc]
    cases hstray : latest fieldSlots t.kind c.name before with
    | none => exact ⟨_, rfl, rfl⟩
    | some slot =>
      have hn := name_not_mem_fields_of_mem_childClaims hc
      rcases h.fields before t hlast _ _ hn hstray with ⟨hl, -⟩ | ⟨-, hserves⟩
      · rw [childClaims_eq_nil (children_eq_none_of_isLeaf hl)] at hc
        simp at hc
      · exact ⟨slot, rfl, hserves⟩

theorem mem_featureNames_of_straysFit (h : StraysFit types) (hlast : LastOfKind types before t)
    {name : String} (hslot : ((derive types).2.field? t.kind name).isSome ∨
      ((derive types).2.accessor? t.kind name).isSome) :
    name ∈ (entityOf (Supertypes.ofTypes types) t).featureNames := by
  rw [mem_featureNames_entityOf]
  by_contra hnone
  obtain ⟨hf, ha⟩ := not_or.1 hnone
  rw [field?_of_stray hlast hf, accessor?_of_stray hlast ha, Option.isSome_iff_exists,
    Option.isSome_iff_exists] at hslot
  rcases hslot with ⟨slot, hslot⟩ | ⟨slot, hslot⟩
  · refine ha (mem_map_fst_accessorSlots.2 ?_)
    rcases h.fields before t hlast name slot hf hslot with hleaf | ⟨hclaim, -⟩
    · exact .inr hleaf
    · exact .inl hclaim
  · obtain ⟨spec, hspec, -⟩ := h.accessors before t hlast name slot ha hslot
    exact hf (List.mem_map_of_mem hspec)

theorem agrees_of_straysFit (h : StraysFit types) :
    Agrees (derive types).1 (derive types).2 where
  property := by
    intro e he p hp
    obtain ⟨before, t, hlast, hkind, rfl⟩ :=
      exists_lastOfKind_of_entity? (Metamodel.entity?_of_mem he)
    exact propertySlot?_of_straysFit h hlast hp
  relation := by
    intro e he r hr
    obtain ⟨before, t, hlast, hkind, rfl⟩ :=
      exists_lastOfKind_of_entity? (Metamodel.entity?_of_mem he)
    exact relationSlot?_of_straysFit h hlast hr
  declared := by
    intro rule name hslot
    have hkind : ∃ before t, LastOfKind types before t ∧ t.kind = rule := by
      rw [field?_derive, accessor?_derive, Option.isSome_iff_exists,
        Option.isSome_iff_exists] at hslot
      rcases hslot with ⟨slot, hslot⟩ | ⟨slot, hslot⟩
      · exact exists_lastOfKind_of_latest hslot
      · exact exists_lastOfKind_of_latest hslot
    obtain ⟨before, t, hlast, rfl⟩ := hkind
    exact ⟨_, hlast.entity?, mem_featureNames_of_straysFit h hlast hslot⟩

/-- The metamodel and the slots of a grammar agree exactly if the stray slots fit. -/
theorem agrees_derive_iff (types : List NodeType) :
    Agrees (derive types).1 (derive types).2 ↔ StraysFit types :=
  ⟨straysFit_of_agrees, agrees_of_straysFit⟩

/-- Two node types of one kind, of which the first alone has a field. -/
def replacedField : List NodeType :=
  [{ kind := "p", named := true, fields := .ofList [("x", ⟨true, false, [⟨"a", true⟩]⟩)] },
    { kind := "p", named := true }]

/-- The slot of the field stays, while the entity has lost the relation. -/
theorem not_agrees_replacedField :
    ¬ Agrees (derive replacedField).1 (derive replacedField).2 := by
  intro h
  obtain ⟨e, he, hname⟩ := h.declared "p" "x" (by decide)
  have hentity : (derive replacedField).1.entity? "p" =
      some { name := "p", properties := [⟨"text", .single⟩], relations := [] } := by decide
  rw [hentity] at he
  obtain rfl := Option.some.inj he
  revert hname
  decide

theorem straysFit_of_distinctKinds (h : DistinctKinds types) : StraysFit types where
  fields := by
    intro before t hlast name slot _ hslot
    simp [latest_before_eq_none h hlast] at hslot
  accessors := by
    intro before t hlast name slot _ hslot
    simp [latest_before_eq_none h hlast] at hslot

end Grammar

end SourceOutline
