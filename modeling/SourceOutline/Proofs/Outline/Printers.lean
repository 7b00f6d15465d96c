import SourceOutline.Outline.Lines
import SourceOutline.Outline.Printer

/-
  The two printers of outlines agree: without colours the lines for a terminal, each ended by a
  newline, are the text of the outline (`text_eq_joinLines`).

  The text writes a label before it goes down to a child, the lines hand it down to stand in front
  of the child's first line. So at any depth the lines of an outline make up its text there behind
  the label (`joinLines_lines`).
-/

namespace SourceOutline

/-- The lines, each ended by a newline. -/
def joinLines (lines : List String) : String := String.join (lines.map (· ++ "\n"))

theorem joinLines_nil : joinLines [] = "" := rfl

theorem joinLines_cons (line : String) (lines : List String) :
    joinLines (line :: lines) = line ++ "\n" ++ joinLines lines := by
  rw [joinLines, List.map_cons, String.join_cons]
  rfl

theorem joinLines_append (a b : List String) :
    joinLines (a ++ b) = joinLines a ++ joinLines b := by
  rw [joinLines, List.map_append, String.join_append]
  rfl

theorem joinLines_singleton (line : String) : joinLines [line] = line ++ "\n" := by
  rw [joinLines_cons, joinLines_nil, String.append_empty]

theorem Theme.apply_plain (role : Role) (text : String) : (Theme.plain role).apply text = text :=
  rfl

theorem textMargin_succ (level : Nat) : textMargin (level + 1) = "  " ++ textMargin level := by
  have htwo : List.replicate ((level + 1) * 2) ' ' =
      [' ', ' '] ++ List.replicate (level * 2) ' ' := by
    rw [Nat.succ_mul, Nat.add_comm, ← List.replicate_append_replicate]
    rfl
  rw [textMargin, htwo, String.ofList_append]
  rfl

theorem lineMargin_eq_textMargin (depth : Nat) : lineMargin depth = textMargin (depth + 1) := by
  induction depth with
  | zero => rfl
  | succ depth ih =>
    rw [textMargin_succ, ← ih]
    exact String.join_cons

mutual

/-- The lines of an outline are its text behind the label, at any depth. -/
theorem Outline.joinLines_lines (depth : Nat) (label : String) :
    (o : Outline) → joinLines (o.lines Theme.plain depth label) = label ++ o.write depth
  | .mk entity none values => by
    rw [Outline.lines, Outline.write, joinLines_cons, OutlineValue.joinLines_linesOf]
    simp only [Theme.apply_plain, String.append_assoc]
  | .mk entity (some s) values => by
    rw [Outline.lines, Outline.write, joinLines_cons, OutlineValue.joinLines_linesOf]
    have hopen : toString " [" = " " ++ toString "[" := rfl
    simp only [Theme.apply_plain, hopen, String.append_assoc]

theorem OutlineValue.joinLines_linesOf (depth : Nat) : (values : List OutlineValue) →
    joinLines (OutlineValue.linesOf Theme.plain depth values) = OutlineValue.writeAll depth values
  | [] => rfl
  | .mk name index content :: values => by
    rw [OutlineValue.linesOf, OutlineValue.writeAll, joinLines_append,
      OutlineContent.joinLines_lines, OutlineValue.joinLines_linesOf]
    simp only [String.append_assoc]
    rfl

theorem OutlineContent.joinLines_lines (depth : Nat) (label : String) :
    (c : OutlineContent) → joinLines (c.lines Theme.plain depth label) =
      textMargin (depth + 1) ++ label ++ ": " ++ c.write depth
  | .value v => by
    rw [OutlineContent.lines, OutlineContent.write, joinLines_singleton, lineMargin_eq_textMargin,
      Theme.apply_plain, String.append_assoc]
  | .element o => by
    rw [OutlineContent.lines, OutlineContent.write, Outline.joinLines_lines,
      lineMargin_eq_textMargin, Theme.apply_plain]
  | .elided entity => by
    rw [OutlineContent.lines, OutlineContent.write, joinLines_singleton, lineMargin_eq_textMargin]
    have hdots : " ...\n" = " " ++ ("..." ++ "\n") := rfl
    simp only [Theme.apply_plain, hdots, String.append_assoc]

end

/-- Without colours, the lines an outline is shown by are its text. -/
theorem Outline.text_eq_joinLines (o : Outline) :
    o.text = joinLines (o.lines Theme.plain 0 "") := by
  rw [Outline.joinLines_lines, String.empty_append, Outline.text]

end SourceOutline
