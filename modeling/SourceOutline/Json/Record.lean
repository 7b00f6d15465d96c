import SourceOutline.Json.Basic

/-
  Records written as JSON. A record with declared fields is an object, or an array of its fields in
  the order of their declaration.

  In an object a declared key stands at most once and other keys are skipped. An array holds no
  more than the declared fields, and only fields at its end that say so may be missing.
-/

namespace SourceOutline.Json

/-- A declared field of a record. -/
structure Field where
  name : String
  /-- Whether an array may end before this field. -/
  trailing : Bool

/-- The values under a key, in order. -/
def valuesAt (key : String) (members : List (String × Json)) : List Json :=
  (members.filter (·.1 = key)).map Prod.snd

/-- The value of a key that stands at most once. -/
def member? (members : List (String × Json)) (key : String) : Option (Option Json) :=
  match valuesAt key members with
  | [] => some none
  | [v] => some (some v)
  | _ => none

/-- The items of an array against the declared fields. -/
def positional? : List Field → List Json → Option (List (Option Json))
  | [], [] => some []
  | [], _ :: _ => none
  | f :: fs, [] => if f.trailing then (positional? fs []).map (none :: ·) else none
  | _ :: fs, v :: vs => (positional? fs vs).map (some v :: ·)

/-- The given value of each declared field, in the order of declaration. -/
def fields? (fields : List Field) : Json → Option (List (Option Json))
  | .object members => fields.mapM fun f => member? members f.name
  | .array items => positional? fields items
  | _ => none

/-- A field that has to be given. -/
def required? {α : Type} (read : Json → Option α) (given : Option Json) : Option α :=
  given.bind read

/-- A field with a value to fall back on. -/
def orElse? {α : Type} (fallback : α) (read : Json → Option α) : Option Json → Option α
  | none => some fallback
  | some j => read j

end SourceOutline.Json
