import SourceOutline.Text.Split

/-
  Paths as text, with slashes between their parts. Empty parts and single dots stand for nothing.
-/

namespace SourceOutline.Path

/-- The parts between slashes, empty ones included. -/
def parts (path : String) : List String := Text.splitOn '/' path

def isAbsolute (path : String) : Bool := path.toList.head? = some '/'

/-- Whether the first part of a path is all that it says. -/
def isOnly (name path : String) : Bool :=
  match parts path with
  | p :: more => p = name && more.all fun q => q = "" ∨ q = "."
  | [] => false

/-- Whether a path is the working directory, spelled as a dot. -/
def isCurrent (path : String) : Bool := isOnly "." path

/-- What follows some text at the start of a path. -/
def dropText? (before path : String) : Option String :=
  if before.toList.isPrefixOf path.toList then
    some (String.ofList (path.toList.drop before.toList.length))
  else none

/-- A path without a dot and a slash in front. -/
def dropDot (path : String) : String := (dropText? "./" path).getD path

/-- The last part that names something; none if that is the parent directory. -/
def fileName? (path : String) : Option String :=
  match (parts path).reverse.find? fun p => p ≠ "" ∧ p ≠ "." with
  | some ".." => none
  | r => r

/-- What follows the last dot of the file name; none if that dot is its first character. -/
def extension? (path : String) : Option String := do
  let name ← fileName? path
  match (Text.splitOn '.' name).reverse with
  | ext :: before :: more => if before = "" ∧ more = [] then none else some ext
  | _ => none

/-- A path below another; an absolute one stands alone. -/
def join (base path : String) : String :=
  if isAbsolute path ∨ base = "" then path
  else if base.toList.getLast? = some '/' then base ++ path
  else base ++ "/" ++ path

end SourceOutline.Path
