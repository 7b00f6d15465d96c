import SourceOutline.Display.Style
import SourceOutline.Outline.Basic
import SourceOutline.Text.Quoted

/-
  Outlines as lines for a terminal, with entities, properties and relations in styles of their own.
-/

namespace SourceOutline

/-- The margin of the values of an element at `depth`. -/
def lineMargin (depth : Nat) : String := String.join (List.replicate (depth + 1) "  ")

mutual

/-- The lines of an outline at `depth`; `label` stands in front of the first. -/
def Outline.lines (theme : Theme) (depth : Nat) (label : String) : Outline → List String
  | .mk entity span values =>
    let span := match span with
      | some s => " " ++ (theme .dim).apply s!"[{s.text}]"
      | none => ""
    (label ++ (theme .entity).apply entity ++ span) :: OutlineValue.linesOf theme depth values

def OutlineValue.linesOf (theme : Theme) (depth : Nat) : List OutlineValue → List String
  | [] => []
  | .mk name index content :: values =>
    content.lines theme depth s!"{name}#{index}" ++ OutlineValue.linesOf theme depth values

def OutlineContent.lines (theme : Theme) (depth : Nat) (label : String) :
    OutlineContent → List String
  | .value v =>
    [lineMargin depth ++ (theme .property).apply label ++ ": " ++ Text.quoted v.display]
  | .element o =>
    o.lines theme (depth + 1) (lineMargin depth ++ (theme .relation).apply label ++ ": ")
  | .elided entity =>
    [lineMargin depth ++ (theme .relation).apply label ++ ": " ++ (theme .entity).apply entity
      ++ " " ++ (theme .dim).apply "..."]

end

end SourceOutline
