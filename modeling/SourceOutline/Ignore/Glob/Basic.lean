/-
  Patterns for paths: `?` and `*` stay inside one part of a path, `**` as a whole part stands for
  any number of parts, `[...]` is one of some characters, `{...}` one of some patterns, and a
  backslash takes the next character as it is.

  A path is matched by its UTF-8 bytes, so `?` and a class take one byte.
-/

namespace SourceOutline.Ignore

abbrev Bytes := List UInt8

def bytesOf (s : String) : Bytes := s.toUTF8.toList

def slash : UInt8 := 0x2F

inductive Token where
  | char (c : Char)
  /-- One byte other than a slash. -/
  | any
  /-- Bytes other than slashes. -/
  | star
  /-- One byte of the ranges, or, negated, one outside of them. -/
  | charClass (negated : Bool) (ranges : List (Char × Char))
  /-- `**` in front: nothing, or directories with the slash after them. -/
  | leadingDirs
  /-- `**` at the end: what is inside a directory. -/
  | trailingDirs
  /-- `**` inside: a slash, or directories between slashes. -/
  | middleDirs
  | oneOf (branches : List (List Token))

/-- A pattern, as what its path has to have one after the other. -/
abbrev Glob := List Token

namespace Glob

/-- The bytes of a range. Of characters of several bytes only those next to the hyphen are its ends,
    the others stand for themselves. -/
def rangeBytes (range : Char × Char) : List (UInt8 × UInt8) :=
  let lo := bytesOf range.1.toString
  let hi := bytesOf range.2.toString
  let single (b : UInt8) := (b, b)
  if range.1 = range.2 then lo.map single
  else
    match lo.getLast?, hi with
    | some a, b :: more => lo.dropLast.map single ++ (a, b) :: more.map single
    | _, _ => []

/-! ## Empty branches -/

mutual

/-- Whether a pattern says nothing; such branches do not count. -/
def isVoid : List Token → Bool
  | [] => true
  | .oneOf branches :: ts => areVoid branches && isVoid ts
  | _ :: _ => false

def areVoid : List (List Token) → Bool
  | [] => true
  | b :: bs => isVoid b && areVoid bs

end

/-! ## Depth

How deep a pattern is nested, written out as one expression: a group, a choice, a sequence of
several items, a repetition and a class are one level each, and so is a class of several items. -/

/-- How deep the items of a sequence are, the deepest counted, and how many there are. -/
structure Extent where
  depth : Nat
  items : Nat

namespace Extent

def none : Extent := ⟨0, 0⟩

def append (a b : Extent) : Extent := ⟨max a.depth b.depth, a.items + b.items⟩

/-- The depth of the whole sequence. -/
def total (e : Extent) : Nat := if e.items ≤ 1 then e.depth else e.depth + 1

end Extent

mutual

def extent : List Token → Extent
  | [] => .none
  | t :: ts => (tokenExtent t).append (extent ts)

def tokenExtent : Token → Extent
  | .char c => ⟨0, (bytesOf c.toString).length⟩
  | .any => ⟨1, 1⟩
  | .star => ⟨2, 1⟩
  | .charClass _ ranges => ⟨if (ranges.flatMap rangeBytes).length ≤ 1 then 1 else 2, 1⟩
  | .leadingDirs => ⟨4, 1⟩
  | .trailingDirs => ⟨1, 2⟩
  | .middleDirs => ⟨4, 1⟩
  | .oneOf branches =>
    let choice := branchesExtent branches
    if choice.items = 0 then .none else ⟨choice.total + 1, 1⟩

/-- The branches that say something, as the items of a choice. -/
def branchesExtent : List (List Token) → Extent
  | [] => .none
  | b :: bs =>
    let here := extent b
    let more := branchesExtent bs
    if here.items = 0 then more else Extent.append ⟨here.total, 1⟩ more

end

/-- The depth of a pattern, which as a whole is a sequence. -/
def depth (g : Glob) : Nat := (extent g).depth + 1

/-- Deeper patterns cannot be used. -/
def maxDepth : Nat := 250

end Glob

end SourceOutline.Ignore
