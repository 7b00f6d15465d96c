import SourceOutline.Outline.Basic
import SourceOutline.Text.Quoted

/-
  Outlines as text: a line for each element and each value, two spaces to a level. An element shows
  its entity and span, a value its text in quotes, a child left out its entity and three dots.
-/

namespace SourceOutline

/-- The margin of a line at `level`. -/
def textMargin (level : Nat) : String := String.ofList (List.replicate (level * 2) ' ')

mutual

/-- The text of an outline whose first line stands at `depth`; the caller has written its margin. -/
def Outline.write (depth : Nat) : Outline → String
  | .mk entity span values =>
    let span := match span with
      | some s => s!" [{s.text}]"
      | none => ""
    entity ++ span ++ "\n" ++ OutlineValue.writeAll depth values

def OutlineValue.writeAll (depth : Nat) : List OutlineValue → String
  | [] => ""
  | .mk name index content :: values =>
    textMargin (depth + 1) ++ s!"{name}#{index}: " ++ content.write depth
      ++ OutlineValue.writeAll depth values

def OutlineContent.write (depth : Nat) : OutlineContent → String
  | .value v => Text.quoted v.display ++ "\n"
  | .element o => o.write (depth + 1)
  | .elided entity => entity ++ " ...\n"

end

def Outline.text (o : Outline) : String := o.write 0

end SourceOutline
