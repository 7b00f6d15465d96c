/-
  Cutting texts at a separator, and the blank characters at their end.
-/

namespace SourceOutline.Text

/-- Cuts a list at every `sep`; there is one piece more than separators. -/
def splitList {α : Type} [DecidableEq α] (sep : α) : List α → List (List α)
  | [] => [[]]
  | c :: cs =>
    match splitList sep cs with
    | [] => [[c]]
    | p :: ps => if c = sep then [] :: p :: ps else (c :: p) :: ps

/-- What stands before and behind the last `sep`. -/
def rsplitList? {α : Type} [DecidableEq α] (sep : α) : List α → Option (List α × List α)
  | [] => none
  | c :: cs =>
    match rsplitList? sep cs with
    | some (before, behind) => some (c :: before, behind)
    | none => if c = sep then some ([], cs) else none

def splitOn (sep : Char) (s : String) : List String :=
  (splitList sep s.toList).map String.ofList

/-- The characters with the Unicode property White_Space. -/
def isBlank (c : Char) : Bool :=
  let n := c.toNat
  (9 ≤ n && n ≤ 13) || n = 0x20 || n = 0x85 || n = 0xA0 || n = 0x1680
    || (0x2000 ≤ n && n ≤ 0x200A) || n = 0x2028 || n = 0x2029 || n = 0x202F || n = 0x205F
    || n = 0x3000

def dropTrailingBlanks (cs : List Char) : List Char := (cs.reverse.dropWhile isBlank).reverse

end SourceOutline.Text
