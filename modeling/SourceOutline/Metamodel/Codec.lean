import SourceOutline.Json.Record
import SourceOutline.Metamodel.Entity

/-
  Entities as JSON. Written, an entity always shows its properties and relations, and a relation
  shows its targets only if it has some; read, the three lists may be missing.
-/

namespace SourceOutline

def Multiplicity.toJson (m : Multiplicity) : Json := .string m.name

/-- A multiplicity is its name, or an object with that name and nothing under it. -/
def Multiplicity.ofJson? : Json → Option Multiplicity
  | .string s => ofName? s
  | .object [(s, .null)] => ofName? s
  | _ => none

namespace Property

def toJson (p : Property) : Json :=
  .object [("name", .string p.name), ("multiplicity", p.multiplicity.toJson)]

def jsonFields : List Json.Field := [⟨"name", false⟩, ⟨"multiplicity", false⟩]

def ofJson? (j : Json) : Option Property := do
  match ← j.fields? jsonFields with
  | [name, multiplicity] =>
    let name ← Json.required? Json.string? name
    let multiplicity ← Json.required? Multiplicity.ofJson? multiplicity
    pure ⟨name, multiplicity⟩
  | _ => none

end Property

namespace Relation

def toJson (r : Relation) : Json :=
  .object (("name", .string r.name) :: ("multiplicity", r.multiplicity.toJson) ::
    if r.targets.isEmpty then [] else [("targets", .strings r.targets)])

def jsonFields : List Json.Field := [⟨"name", false⟩, ⟨"multiplicity", false⟩, ⟨"targets", true⟩]

def ofJson? (j : Json) : Option Relation := do
  match ← j.fields? jsonFields with
  | [name, multiplicity, targets] =>
    let name ← Json.required? Json.string? name
    let multiplicity ← Json.required? Multiplicity.ofJson? multiplicity
    let targets ← Json.orElse? [] (Json.listOf? Json.string?) targets
    pure ⟨name, multiplicity, targets⟩
  | _ => none

end Relation

namespace Entity

def toJson (e : Entity) : Json :=
  .object [("name", .string e.name), ("properties", .array (e.properties.map Property.toJson)),
    ("relations", .array (e.relations.map Relation.toJson))]

def jsonFields : List Json.Field := [⟨"name", false⟩, ⟨"properties", true⟩, ⟨"relations", true⟩]

def ofJson? (j : Json) : Option Entity := do
  match ← j.fields? jsonFields with
  | [name, properties, relations] =>
    let name ← Json.required? Json.string? name
    let properties ← Json.orElse? [] (Json.listOf? Property.ofJson?) properties
    let relations ← Json.orElse? [] (Json.listOf? Relation.ofJson?) relations
    pure ⟨name, properties, relations⟩
  | _ => none

end Entity

end SourceOutline
