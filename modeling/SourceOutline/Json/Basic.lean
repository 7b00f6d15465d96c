/-
  JSON values. Object members keep their order and may repeat a key: what a repeated key means is
  up to the reader. An integer is told from a number that is written with a fraction or an exponent.
-/

namespace SourceOutline

inductive Json where
  | null
  | bool (b : Bool)
  | int (n : Int)
  /-- A number written with a fraction or an exponent, or minus zero, as its text. -/
  | real (text : String)
  | string (s : String)
  | array (items : List Json)
  | object (members : List (String × Json))
  /-- Well-formed text that names no characters: a string, or an object with a key, that holds half
      of a surrogate pair. It can be skipped but not read. -/
  | garbled

namespace Json

def bool? : Json → Option Bool
  | .bool b => some b
  | _ => none

def string? : Json → Option String
  | .string s => some s
  | _ => none

def array? : Json → Option (List Json)
  | .array l => some l
  | _ => none

/-- A natural number below two to the 64th. -/
def word? : Json → Option Nat
  | .int n => if 0 ≤ n ∧ n < 18446744073709551616 then some n.toNat else none
  | _ => none

/-- A list whose items all read. -/
def listOf? {α : Type} (read : Json → Option α) (j : Json) : Option (List α) :=
  j.array?.bind (·.mapM read)

/-- `null`, or a value that reads. -/
def nullable? {α : Type} (read : Json → Option α) : Json → Option (Option α)
  | .null => some none
  | j => (read j).map some

def strings (l : List String) : Json := .array (l.map .string)

def nat (n : Nat) : Json := .int n

def ofOption {α : Type} (write : α → Json) : Option α → Json
  | none => .null
  | some a => write a

end Json

end SourceOutline
