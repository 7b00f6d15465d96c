import Mathlib.Data.List.Forall2
import SourceOutline.Proofs.Outline.Printers
import SourceOutline.Text.Split

/-
  The text of an outline has a line for the outline itself and one for each value in it, at all
  levels, and nothing that a value holds can add another (`splitOn_text`).

  A value is shown in quotes, where a newline is written as an escape (`oneLine_quoted`). So if the
  names are each on one line, the lines that an outline is shown by have no newline in them
  (`oneLine_lines`), and cutting the text at its newlines gives them back (`splitOn_joinLines`). In
  order they are those of the values, each under its margin and label (`opens_linesOf`).
-/

namespace SourceOutline

/-! ## Texts on one line -/

/-- There is no newline in the text. -/
def OneLine (s : String) : Prop := '\n' ∉ s.toList

instance (s : String) : Decidable (OneLine s) := inferInstanceAs (Decidable (_ ∉ _))

theorem oneLine_append {a b : String} : OneLine (a ++ b) ↔ OneLine a ∧ OneLine b := by
  unfold OneLine
  rw [String.toList_append, List.mem_append, not_or]

theorem newline_not_mem_toDigits {b : Nat} (hb : 1 < b) (n : Nat) :
    '\n' ∉ Nat.toDigits b n := by
  have hdigit (d : Nat) : '\n' ≠ d.digitChar := (Nat.digitChar_ne '\n' (by decide)).symm
  induction n using Nat.strongRecOn with
  | ind n ih =>
    rw [Nat.toDigits_eq_if hb]
    split
    · rw [List.mem_singleton]
      exact hdigit n
    · next hn =>
      have hless : n / b < n := Nat.div_lt_self (by omega) hb
      rw [List.mem_append, List.mem_singleton, not_or]
      exact ⟨ih (n / b) hless, hdigit (n % b)⟩

theorem oneLine_nat (n : Nat) : OneLine (toString n) := by
  show '\n' ∉ n.repr.toList
  rw [Nat.toList_repr]
  exact newline_not_mem_toDigits (by decide) n

theorem oneLine_int (n : Int) : OneLine (toString n) := by
  cases n with
  | ofNat n => exact oneLine_nat n
  | negSucc n => exact oneLine_append.2 ⟨by decide, oneLine_nat (n + 1)⟩

theorem oneLine_span (s : Span) : OneLine s.text := by
  unfold Span.text
  simp only [oneLine_append, oneLine_int, and_true, true_and]
  decide

theorem newline_not_mem_quotedChar (c : Char) : '\n' ∉ Text.quotedChar c := by
  unfold Text.quotedChar
  by_cases hnewline : c = '\n'
  · subst hnewline
    decide
  · -- as it is, behind a backslash, or by its code point
    have hhex : '\n' ∉ Text.hexText c.toNat := newline_not_mem_toDigits (by decide) _
    repeat' split
    all_goals simp [hhex, Ne.symm hnewline]

/-- What is in quotes is on one line, whatever it is. -/
theorem oneLine_quoted (s : String) : OneLine (Text.quoted s) := by
  unfold OneLine Text.quoted
  rw [String.toList_ofList]
  simp [newline_not_mem_quotedChar]

/-! ## Cutting a text into its lines -/

theorem Text.exists_splitList_eq {α : Type} [DecidableEq α] (sep : α) (cs : List α) :
    ∃ piece pieces, Text.splitList sep cs = piece :: pieces := by
  cases cs with
  | nil => exact ⟨[], [], rfl⟩
  | cons c cs =>
    rw [Text.splitList]
    split
    · exact ⟨_, _, rfl⟩
    · split <;> exact ⟨_, _, rfl⟩

theorem Text.splitList_append_cons {α : Type} [DecidableEq α] {sep : α} (line rest : List α)
    (h : sep ∉ line) :
    Text.splitList sep (line ++ sep :: rest) = line :: Text.splitList sep rest := by
  induction line with
  | nil =>
    obtain ⟨piece, pieces, hrest⟩ := Text.exists_splitList_eq sep rest
    rw [List.nil_append, Text.splitList, hrest]
    exact if_pos rfl
  | cons c line ih =>
    obtain ⟨hc, hline⟩ := not_or.1 (mt List.mem_cons.2 h)
    rw [List.cons_append, Text.splitList, ih hline]
    exact if_neg (Ne.symm hc)

/-- Lines without newlines are found again in their text, with the empty piece behind the last. -/
theorem splitOn_joinLines (lines : List String) (h : ∀ line ∈ lines, OneLine line) :
    Text.splitOn '\n' (joinLines lines) = lines ++ [""] := by
  induction lines with
  | nil => rfl
  | cons line lines ih =>
    have hline : OneLine line := h line List.mem_cons_self
    have hrest := ih fun l hl => h l (List.mem_cons_of_mem _ hl)
    have hcut : (joinLines (line :: lines)).toList =
        line.toList ++ '\n' :: (joinLines lines).toList := by
      rw [joinLines_cons, String.toList_append, String.toList_append, List.append_assoc]
      rfl
    rw [Text.splitOn, hcut, Text.splitList_append_cons _ _ hline, List.map_cons,
      String.ofList_toList, ← Text.splitOn, hrest, List.cons_append]

/-- A text of at least one line ends with a newline. -/
theorem getLast_joinLines (line : String) (lines : List String) :
    (joinLines (line :: lines)).toList.getLast? = some '\n' := by
  obtain ⟨before, last, hlines⟩ := List.eq_nil_or_concat (line :: lines) |>.resolve_left (by simp)
  rw [hlines, List.concat_eq_append, joinLines_append, joinLines_singleton]
  simp

/-! ## The values of an outline -/

mutual

/-- The names that an outline shows: of its entities, of children left out, and of its values. -/
def Outline.names : Outline → List String
  | .mk entity _ values => entity :: OutlineValue.namesOf values

def OutlineValue.namesOf : List OutlineValue → List String
  | [] => []
  | .mk name _ content :: values => name :: (content.names ++ OutlineValue.namesOf values)

def OutlineContent.names : OutlineContent → List String
  | .value _ => []
  | .element o => o.names
  | .elided entity => [entity]

end

mutual

/-- The number of values in an outline, at all levels. -/
def Outline.valueCount : Outline → Nat
  | .mk _ _ values => OutlineValue.valueCountAll values

def OutlineValue.valueCountAll : List OutlineValue → Nat
  | [] => 0
  | .mk _ _ content :: values => 1 + content.valueCount + OutlineValue.valueCountAll values

def OutlineContent.valueCount : OutlineContent → Nat
  | .value _ => 0
  | .element o => o.valueCount
  | .elided _ => 0

end

/-- A value as it is announced: by name and index, in an element at `depth`. -/
structure ValueLabel where
  depth : Nat
  name : String
  index : Nat
deriving DecidableEq

mutual

/-- The values of an outline at `depth` in preorder: a value, then those of the child it holds. -/
def Outline.labels (depth : Nat) : Outline → List ValueLabel
  | .mk _ _ values => OutlineValue.labelsOf depth values

def OutlineValue.labelsOf (depth : Nat) : List OutlineValue → List ValueLabel
  | [] => []
  | .mk name index content :: values =>
    ⟨depth, name, index⟩ :: (content.labels depth ++ OutlineValue.labelsOf depth values)

def OutlineContent.labels (depth : Nat) : OutlineContent → List ValueLabel
  | .value _ => []
  | .element o => o.labels (depth + 1)
  | .elided _ => []

end

/-- The line starts with the margin, name and index of the value. -/
def ValueLabel.Opens (v : ValueLabel) (line : String) : Prop :=
  List.replicate (2 * (v.depth + 1)) ' ' ++ (v.name ++ "#" ++ toString v.index ++ ": ").toList
    <+: line.toList

instance (v : ValueLabel) (line : String) : Decidable (v.Opens line) :=
  inferInstanceAs (Decidable (_ <+: _))

mutual

theorem Outline.length_labels (depth : Nat) :
    (o : Outline) → (o.labels depth).length = o.valueCount
  | .mk _ _ values => OutlineValue.length_labelsOf depth values

theorem OutlineValue.length_labelsOf (depth : Nat) : (values : List OutlineValue) →
    (OutlineValue.labelsOf depth values).length = OutlineValue.valueCountAll values
  | [] => rfl
  | .mk name index content :: values => by
    rw [OutlineValue.labelsOf, OutlineValue.valueCountAll, List.length_cons, List.length_append,
      OutlineContent.length_labels, OutlineValue.length_labelsOf]
    omega

theorem OutlineContent.length_labels (depth : Nat) :
    (c : OutlineContent) → (c.labels depth).length = c.valueCount
  | .value _ => rfl
  | .element o => Outline.length_labels (depth + 1) o
  | .elided _ => rfl

end

/-! ## The lines of an outline -/

theorem oneLine_lineMargin (depth : Nat) : OneLine (lineMargin depth) := by
  rw [lineMargin_eq_textMargin, textMargin, OneLine, String.toList_ofList, List.mem_replicate]
  exact fun h => absurd h.2 (by decide)

/-- The first line of an outline is its label and entity, then its span. -/
theorem Outline.exists_lines_eq (depth : Nat) (label entity : String) (span : Option Span)
    (values : List OutlineValue) :
    ∃ place, OneLine place ∧ (Outline.mk entity span values).lines Theme.plain depth label =
      (label ++ (entity ++ place)) :: OutlineValue.linesOf Theme.plain depth values := by
  cases span with
  | none =>
    refine ⟨"", by decide, ?_⟩
    rw [Outline.lines, Theme.apply_plain, String.append_assoc]
  | some s =>
    refine ⟨" " ++ s!"[{s.text}]", ?_, ?_⟩
    · simp only [oneLine_append]
      exact ⟨by decide, ⟨by decide, oneLine_span s⟩, by decide⟩
    · rw [Outline.lines, Theme.apply_plain, String.append_assoc, Theme.apply_plain]

mutual

/-- No line that an outline is shown by has a newline, if its names have none. -/
theorem Outline.oneLine_lines (depth : Nat) {label : String} (hlabel : OneLine label) :
    (o : Outline) → (∀ name ∈ o.names, OneLine name) →
      ∀ line ∈ o.lines Theme.plain depth label, OneLine line
  | .mk entity span values, hnames => by
    rw [Outline.names, List.forall_mem_cons] at hnames
    obtain ⟨place, hplace, hlines⟩ := Outline.exists_lines_eq depth label entity span values
    rw [hlines, List.forall_mem_cons]
    refine ⟨?_, OutlineValue.oneLine_linesOf depth values hnames.2⟩
    exact oneLine_append.2 ⟨hlabel, oneLine_append.2 ⟨hnames.1, hplace⟩⟩

theorem OutlineValue.oneLine_linesOf (depth : Nat) : (values : List OutlineValue) →
    (∀ name ∈ OutlineValue.namesOf values, OneLine name) →
      ∀ line ∈ OutlineValue.linesOf Theme.plain depth values, OneLine line
  | [], _ => List.forall_mem_nil _
  | .mk name index content :: values, hnames => by
    rw [OutlineValue.namesOf, List.forall_mem_cons, List.forall_mem_append] at hnames
    obtain ⟨hname, hcontent, hvalues⟩ := hnames
    rw [OutlineValue.linesOf, List.forall_mem_append]
    refine ⟨OutlineContent.oneLine_lines depth ?_ content hcontent,
      OutlineValue.oneLine_linesOf depth values hvalues⟩
    exact oneLine_append.2 ⟨oneLine_append.2 ⟨hname, by decide⟩, oneLine_nat index⟩

theorem OutlineContent.oneLine_lines (depth : Nat) {label : String} (hlabel : OneLine label) :
    (c : OutlineContent) → (∀ name ∈ c.names, OneLine name) →
      ∀ line ∈ c.lines Theme.plain depth label, OneLine line
  | .value v, _ => by
    rw [OutlineContent.lines, List.forall_mem_singleton]
    simp only [Theme.apply_plain, oneLine_append, oneLine_lineMargin, hlabel, oneLine_quoted]
    decide
  | .element o, hnames => by
    rw [OutlineContent.lines]
    refine Outline.oneLine_lines (depth + 1) ?_ o hnames
    simp only [Theme.apply_plain, oneLine_append, oneLine_lineMargin, hlabel]
    decide
  | .elided entity, hnames => by
    have hentity : OneLine entity := hnames entity List.mem_cons_self
    rw [OutlineContent.lines, List.forall_mem_singleton]
    simp only [Theme.apply_plain, oneLine_append, oneLine_lineMargin, hlabel, hentity]
    decide

end

/-- Whatever follows the margin and the label of a value, the line starts with them. -/
theorem ValueLabel.opens_append (depth : Nat) (name : String) (index : Nat) (rest : String) :
    ValueLabel.Opens ⟨depth, name, index⟩
      (lineMargin depth ++ s!"{name}#{index}" ++ ": " ++ rest) := by
  refine ⟨rest.toList, ?_⟩
  rw [lineMargin_eq_textMargin, textMargin, Nat.mul_comm]
  simp only [String.toList_append, String.toList_ofList, List.append_assoc]
  rfl

mutual

theorem OutlineValue.opens_linesOf (depth : Nat) : (values : List OutlineValue) →
    List.Forall₂ ValueLabel.Opens (OutlineValue.labelsOf depth values)
      (OutlineValue.linesOf Theme.plain depth values)
  | [] => .nil
  | .mk name index content :: values => by
    rw [OutlineValue.labelsOf, OutlineValue.linesOf, ← List.cons_append]
    exact List.rel_append (OutlineContent.opens_lines depth name index content)
      (OutlineValue.opens_linesOf depth values)

theorem OutlineContent.opens_lines (depth : Nat) (name : String) (index : Nat) :
    (c : OutlineContent) → List.Forall₂ ValueLabel.Opens (⟨depth, name, index⟩ :: c.labels depth)
      (c.lines Theme.plain depth s!"{name}#{index}")
  | .value v => .cons (ValueLabel.opens_append depth name index _) .nil
  | .element (.mk entity span values) => by
    -- the value and the child that it holds share a line, the child's first
    obtain ⟨place, -, hlines⟩ := Outline.exists_lines_eq (depth + 1)
      (lineMargin depth ++ s!"{name}#{index}" ++ ": ") entity span values
    rw [OutlineContent.lines, Theme.apply_plain, hlines]
    exact .cons (ValueLabel.opens_append depth name index _)
      (OutlineValue.opens_linesOf (depth + 1) values)
  | .elided entity => by
    rw [OutlineContent.lines, String.append_assoc, String.append_assoc]
    exact .cons (ValueLabel.opens_append depth name index _) .nil

end

/-- An outline whose names are on one line has a text of one line for itself and one for each
    value in it, whatever the values hold. The lines of the values come in preorder, and each starts
    with the margin and the label of its value. -/
theorem Outline.splitOn_text (o : Outline) (hnames : ∀ name ∈ o.names, OneLine name) :
    o.text.toList.getLast? = some '\n' ∧
      ∃ lines, Text.splitOn '\n' o.text = lines ++ [""] ∧ lines.length = 1 + o.valueCount ∧
        List.Forall₂ ValueLabel.Opens (o.labels 0) lines.tail := by
  have htext : o.text = joinLines (o.lines Theme.plain 0 "") := by
    rw [Outline.joinLines_lines, String.empty_append, Outline.text]
  have honeLine := Outline.oneLine_lines 0 (by decide : OneLine "") o hnames
  have hlength := Outline.length_labels 0 o
  obtain ⟨entity, span, values⟩ := o
  obtain ⟨place, -, hlines⟩ := Outline.exists_lines_eq 0 "" entity span values
  have hopens := OutlineValue.opens_linesOf 0 values
  rw [hlines] at htext honeLine
  rw [htext]
  refine ⟨getLast_joinLines _ _, _, splitOn_joinLines _ honeLine, ?_, hopens⟩
  rw [← hlength, List.length_cons, ← hopens.length_eq, Nat.add_comm]
  rfl

/-- A comment whose text reads like more of the outline, before a child with values of its own. -/
def forgedOutline : Outline :=
  .mk "Block" (some ⟨1, 0, 4, 1⟩) [
    .mk "comment" 0 (.value (.text "x\"\n  body#0: \"forged\r\n\n")),
    .mk "body" 0 (.element (.mk "Call" none [
      .mk "callee" 0 (.value (.text "f\x00\n")),
      .mk "argument" 0 (.elided "Call")]))]

theorem Outline.splitOn_text_forgedOutline :
    (∀ name ∈ forgedOutline.names, OneLine name) ∧ forgedOutline.valueCount = 4 ∧
      forgedOutline.text.toList.getLast? = some '\n' ∧
      ∃ lines, Text.splitOn '\n' forgedOutline.text = lines ++ [""] ∧ lines.length = 5 ∧
        List.Forall₂ ValueLabel.Opens
          [⟨0, "comment", 0⟩, ⟨0, "body", 0⟩, ⟨1, "callee", 0⟩, ⟨1, "argument", 0⟩] lines.tail := by
  have hnames : ∀ name ∈ forgedOutline.names, OneLine name := by decide
  exact ⟨hnames, rfl, Outline.splitOn_text forgedOutline hnames⟩

end SourceOutline
