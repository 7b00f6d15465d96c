import SourceOutline.Json.Record
import SourceOutline.SyntaxTree.Basic

/-
  Parse trees as JSON: the nodes in preorder, each an array of its kind, whether it is named, its
  field or null, the offsets of its start and end, its row and column, and its number of children.
-/

namespace SourceOutline

def Json.uint64? (j : Json) : Option UInt64 := j.word?.map Nat.toUInt64

namespace SyntaxTree

def rowOfJson? : Json → Option (TreeLabel × Nat)
  | .array [kind, named, field, start, stop, row, column, children] => do
    let label : TreeLabel :=
      { kind := ← kind.string?
        named := ← named.bool?
        field := ← field.nullable? Json.string?
        startByte := ← start.uint64?
        endByte := ← stop.uint64?
        row := ← row.uint64?
        column := ← column.uint64? }
    pure (label, ← children.word?)
  | _ => none

def ofJson? (j : Json) : Option SyntaxTree := (j.listOf? rowOfJson?).bind ofPreorder?

end SyntaxTree

end SourceOutline
