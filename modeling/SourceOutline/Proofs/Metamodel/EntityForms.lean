import SourceOutline.Metamodel.Codec
import SourceOutline.Proofs.Json.Record

/-
  Reading an entity undoes writing it, in whatever form its JSON comes (`Entity.ofJson?_of_form`).

  The entity, its properties and its relations are records, and each of them may be given in any of
  the forms of a record: keys in another order, keys that are not declared, or an array of the
  fields. What is written is one of these forms (`Entity.form_toJson`); there only a relation
  without targets leaves a list out.
-/

namespace SourceOutline

open Json (RecordForm ListField)

theorem Multiplicity.ofJson?_toJson (m : Multiplicity) : ofJson? m.toJson = some m := by
  cases m <;> rfl

/-! ## Properties -/

/-- The JSON of a property, in some form. -/
def Property.Form (p : Property) (j : Json) : Prop :=
  RecordForm Property.jsonFields
    [("name", .string p.name), ("multiplicity", p.multiplicity.toJson)] j

theorem Property.form_toJson (p : Property) : p.Form p.toJson := .object (.refl _)

theorem Property.ofJson?_of_form {p : Property} {j : Json} (h : p.Form j) :
    Property.ofJson? j = some p := by
  have hfields : j.fields? Property.jsonFields =
      some [some (.string p.name), some p.multiplicity.toJson] :=
    RecordForm.fields?_eq h (by decide) (by simp)
  simp [ofJson?, hfields, Json.required?, Json.string?, Multiplicity.ofJson?_toJson]

/-! ## Relations -/

/-- The JSON of a relation, in some form. -/
def Relation.Form (r : Relation) (j : Json) : Prop :=
  ∃ targets, ListField "targets" (r.targets.map .string) targets ∧
    RecordForm Relation.jsonFields
      (("name", .string r.name) :: ("multiplicity", r.multiplicity.toJson) :: targets) j

theorem Relation.form_toJson (r : Relation) : r.Form r.toJson := by
  obtain ⟨name, multiplicity, targets⟩ := r
  cases targets with
  | nil => exact ⟨[], .leftOut rfl, .object (.refl _)⟩
  | cons target targets => exact ⟨_, .given, .object (.refl _)⟩

theorem Relation.ofJson?_of_form {r : Relation} {j : Json} (h : r.Form j) :
    Relation.ofJson? j = some r := by
  obtain ⟨targets, htargets, hform⟩ := h
  have hkeys : ("name" :: "multiplicity" :: targets.map Prod.fst).Nodup :=
    (htargets.keys_sublist.cons_cons _ |>.cons_cons _).nodup (by decide)
  have hfields : j.fields? Relation.jsonFields = some [some (.string r.name),
      some r.multiplicity.toJson, targets.lookup "targets"] :=
    RecordForm.fields?_eq hform (by decide) hkeys
  have hread : Json.orElse? [] (Json.listOf? Json.string?) (targets.lookup "targets") =
      some r.targets := by
    refine htargets.orElse?_eq ?_
    rw [List.forall₂_map_left_iff, List.forall₂_same]
    exact fun s _ => rfl
  simp [ofJson?, hfields, Json.required?, Json.string?, Multiplicity.ofJson?_toJson, hread]

/-! ## Entities -/

/-- The JSON of an entity, in some form. -/
def Entity.Form (e : Entity) (j : Json) : Prop :=
  ∃ ps rs properties relations,
    List.Forall₂ Property.Form e.properties ps ∧ ListField "properties" ps properties ∧
    List.Forall₂ Relation.Form e.relations rs ∧ ListField "relations" rs relations ∧
    RecordForm Entity.jsonFields (("name", .string e.name) :: (properties ++ relations)) j

theorem Entity.form_toJson (e : Entity) : e.Form e.toJson := by
  refine ⟨_, _, _, _, ?_, .given, ?_, .given, .object (.refl _)⟩
  · rw [List.forall₂_map_right_iff, List.forall₂_same]
    exact fun p _ => p.form_toJson
  · rw [List.forall₂_map_right_iff, List.forall₂_same]
    exact fun r _ => r.form_toJson

theorem Entity.ofJson?_of_form {e : Entity} {j : Json} (h : e.Form j) :
    Entity.ofJson? j = some e := by
  obtain ⟨ps, rs, properties, relations, hps, hproperties, hrs, hrelations, hform⟩ := h
  have hkeys : ("name" :: (properties ++ relations).map Prod.fst).Nodup := by
    rw [List.map_append]
    exact ((hproperties.keys_sublist.append hrelations.keys_sublist).cons_cons _).nodup (by decide)
  have hfields : j.fields? Entity.jsonFields = some [some (.string e.name),
      (properties ++ relations).lookup "properties",
      (properties ++ relations).lookup "relations"] :=
    RecordForm.fields?_eq hform (by decide) hkeys
  have hreadProperties : Json.orElse? [] (Json.listOf? Property.ofJson?)
      ((properties ++ relations).lookup "properties") = some e.properties := by
    rw [List.lookup_append, hrelations.lookup_of_ne (by decide), Option.or_none]
    exact hproperties.orElse?_eq (hps.flip.imp fun _ _ => Property.ofJson?_of_form)
  have hreadRelations : Json.orElse? [] (Json.listOf? Relation.ofJson?)
      ((properties ++ relations).lookup "relations") = some e.relations := by
    rw [List.lookup_append, hproperties.lookup_of_ne (by decide), Option.none_or]
    exact hrelations.orElse?_eq (hrs.flip.imp fun _ _ => Relation.ofJson?_of_form)
  simp [ofJson?, hfields, Json.required?, Json.string?, hreadProperties, hreadRelations]

/-- Reading an entity undoes writing it, and gives the same entity for every other form of what was
    written: with the keys of any object in another order, with keys that are not declared, and
    with any record as an array of its fields. -/
theorem Entity.ofJson?_undoes_toJson (e : Entity) :
    Entity.ofJson? e.toJson = some e ∧ ∀ j, e.Form j → Entity.ofJson? j = some e :=
  ⟨ofJson?_of_form e.form_toJson, fun _ => ofJson?_of_form⟩

/-- Two properties of one name, a relation without targets and one with a target given twice. -/
def repeatedNames : Entity :=
  ⟨"call", [⟨"name", .single⟩, ⟨"name", .multiple⟩],
    [⟨"body", .multiple, []⟩, ⟨"name", .single, ["block", "block"]⟩]⟩

/-- The same entity with keys in disorder, keys of its own, and arrays for two of its records. -/
def repeatedNamesJson : Json :=
  .object [("note", .null),
    ("relations", .array [
      .array [.string "body", .string "multiple"],
      .object [("targets", .strings ["block", "block"]), ("note", .garbled), ("note", .int 1),
        ("name", .string "name"), ("multiplicity", .string "single")]]),
    ("name", .string "call"),
    ("properties", .array [
      .array [.string "name", .string "single"],
      .object [("multiplicity", .string "multiple"), ("Name", .null), ("name", .string "name")]])]

theorem Entity.ofJson?_undoes_toJson_repeatedNames :
    repeatedNames.Form repeatedNamesJson ∧
      Entity.ofJson? repeatedNamesJson = some repeatedNames := by
  have hsingle : Property.Form ⟨"name", .single⟩ (.array [.string "name", .string "single"]) :=
    .array (List.append_nil _).symm rfl (by simp)
  have hmultiple : Property.Form ⟨"name", .multiple⟩
      (.object [("multiplicity", .string "multiple"), ("Name", .null), ("name", .string "name")]) :=
    .object (.swap _ _ _)
  have hbody : Relation.Form ⟨"body", .multiple, []⟩
      (.array [.string "body", .string "multiple"]) :=
    ⟨[], .leftOut rfl, .array (List.take_append_drop 2 _).symm rfl (by decide)⟩
  have hname : Relation.Form ⟨"name", .single, ["block", "block"]⟩
      (.object [("targets", .strings ["block", "block"]), ("note", .garbled), ("note", .int 1),
        ("name", .string "name"), ("multiplicity", .string "single")]) :=
    ⟨_, .given, .object (List.perm_append_singleton _ [_, _]).symm⟩
  have hform : repeatedNames.Form repeatedNamesJson :=
    ⟨_, _, _, _, .cons hsingle (.cons hmultiple .nil), .given, .cons hbody (.cons hname .nil),
      .given, .object (List.perm_append_singleton _ [_, _]).symm⟩
  exact ⟨hform, (ofJson?_undoes_toJson repeatedNames).2 repeatedNamesJson hform⟩

end SourceOutline
