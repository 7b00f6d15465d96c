import SourceOutline.Json.Parser
import SourceOutline.Json.Record
import SourceOutline.NameMap

/-
  The node types of a grammar, as its `node-types.json` describes them: for every kind of node the
  fields it may have, the children outside any field, and for a supertype its subtypes.
-/

namespace SourceOutline

/-- A kind of node, named or an anonymous token. -/
structure TypeRef where
  kind : String
  named : Bool
deriving DecidableEq, Repr

/-- What may stand in a field, or among the children outside any field. -/
structure ChildSpec where
  multiple : Bool
  required : Bool
  types : List TypeRef
deriving DecidableEq, Repr

structure NodeType where
  kind : String
  named : Bool
  fields : NameMap ChildSpec := ∅
  children : Option ChildSpec := none
  subtypes : Option (List TypeRef) := none

/-- The kinds of the named types, in order. -/
def namedKinds (types : List TypeRef) : List String := (types.filter TypeRef.named).map TypeRef.kind

/-! ## Reading -/

def TypeRef.ofJson? (j : Json) : Option TypeRef := do
  match ← j.fields? [⟨"type", false⟩, ⟨"named", false⟩] with
  | [kind, named] =>
    let kind ← Json.required? Json.string? kind
    let named ← Json.required? Json.bool? named
    pure ⟨kind, named⟩
  | _ => none

def ChildSpec.ofJson? (j : Json) : Option ChildSpec := do
  match ← j.fields? [⟨"multiple", false⟩, ⟨"required", false⟩, ⟨"types", false⟩] with
  | [multiple, required, types] =>
    let multiple ← Json.required? Json.bool? multiple
    let required ← Json.required? Json.bool? required
    let types ← Json.required? (Json.listOf? TypeRef.ofJson?) types
    pure ⟨multiple, required, types⟩
  | _ => none

/-- An object from field names; of a name given twice the last counts. -/
def fieldsOfJson? : Json → Option (NameMap ChildSpec)
  | .object members => do
    let entries ← members.mapM fun m => do
      let spec ← ChildSpec.ofJson? m.2
      pure (m.1, spec)
    pure (NameMap.ofList entries)
  | _ => none

def NodeType.ofJson? (j : Json) : Option NodeType := do
  match ← j.fields? [⟨"type", false⟩, ⟨"named", false⟩, ⟨"fields", true⟩, ⟨"children", true⟩,
      ⟨"subtypes", true⟩] with
  | [kind, named, fields, children, subtypes] =>
    let kind ← Json.required? Json.string? kind
    let named ← Json.required? Json.bool? named
    let fields ← Json.orElse? ∅ fieldsOfJson? fields
    let children ← Json.orElse? none (Json.nullable? ChildSpec.ofJson?) children
    let subtypes ← Json.orElse? none (Json.nullable? (Json.listOf? TypeRef.ofJson?)) subtypes
    pure ⟨kind, named, fields, children, subtypes⟩
  | _ => none

namespace NodeTypes

def ofJson? (j : Json) : Option (List NodeType) := Json.listOf? NodeType.ofJson? j

/-- The node types that a text describes. -/
def parse? (text : String) : Option (List NodeType) := (Json.parse? text).bind ofJson?

/-- Node types given as JSON, or as a string with the text of them. -/
def ofJsonOrText? : Json → Option (List NodeType)
  | .string text => parse? text
  | j => ofJson? j

end NodeTypes

end SourceOutline
