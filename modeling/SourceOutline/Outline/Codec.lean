import SourceOutline.Json.Basic
import SourceOutline.Outline.Basic

/-
  Values and outlines as JSON. A value is what it holds; only a piece of the source is an object.
-/

namespace SourceOutline

def Json.word (w : UInt64) : Json := .nat w.toNat

def Interval.toJson (i : Interval) : Json :=
  .object [("start", .word i.start), ("end", .word i.stop)]

def Value.toJson : Value → Json
  | .bool b => .bool b
  | .int n => .int n
  | .text s => .string s
  | .token kind s i => .object [("kind", .string kind), ("text", .string s), ("interval", i.toJson)]

def Span.toJson (s : Span) : Json :=
  .object [("start_line", .int s.startLine), ("start_column", .int s.startColumn),
    ("end_line", .int s.endLine), ("end_column", .int s.endColumn)]

mutual

def Outline.toJson : Outline → Json
  | .mk entity span values =>
    .object (("entity", .string entity) :: (match span with
        | some s => [("span", s.toJson)]
        | none => [])
      ++ [("values", .array (OutlineValue.listToJson values))])

def OutlineValue.listToJson : List OutlineValue → List Json
  | [] => []
  | .mk name index content :: values =>
    .object [("name", .string name), ("index", .nat index), ("content", content.toJson)]
      :: OutlineValue.listToJson values

def OutlineContent.toJson : OutlineContent → Json
  | .value v => .object [("value", v.toJson)]
  | .element o => .object [("element", o.toJson)]
  | .elided entity => .object [("elided", .string entity)]

end

end SourceOutline
