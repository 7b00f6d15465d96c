import Mathlib.Algebra.Group.Int.Defs
import Mathlib.Algebra.Group.Nat.Defs
import SourceOutline.Proofs.Element.Readable
import SourceOutline.Proofs.Text.Bytes
import SourceOutline.SyntaxTree.Node

/-
  The positions of the nodes of a tree are places in the source.

  The tree says of a leaf where it stands in bytes, on which row, and at which byte of the row
  (`TreeLabel.PlacedIn`). The first and the last leaf of a node give its positions, in characters:
  the start lies behind what stands before the first leaf, the end behind the last leaf
  (`shows_of_placedIn`).
-/

namespace SourceOutline

/-! ## True places -/

namespace Text

/-- The line of the place behind a text, counted from 1. -/
def lineBehind (cs : List Char) : Nat := 1 + cs.count '\n'

/-- The column of the place behind a text, in characters from 0. -/
def columnBehind (cs : List Char) : Nat := (openLine cs).length

theorem lineBehind_append (a b : List Char) :
    lineBehind (a ++ b) = lineBehind a + b.count '\n' := by
  unfold lineBehind
  rw [List.count_append, Nat.add_assoc]

theorem columnBehind_append (a b : List Char) :
    columnBehind (a ++ b) = if '\n' ∈ b then columnBehind b else columnBehind a + b.length := by
  unfold columnBehind
  split
  · next h => rw [openLine_append_of_mem h]
  · next h => rw [openLine_append_of_not_mem h, List.length_append]

theorem lineBehind_le (cs : List Char) : lineBehind cs ≤ 1 + byteSize cs :=
  Nat.add_le_add_left (List.count_le_length.trans (length_le_byteSize cs)) 1

theorem columnBehind_le (cs : List Char) : columnBehind cs ≤ byteSize cs := by
  obtain ⟨before, hbefore⟩ := exists_eq_append_openLine cs
  have hlength := congrArg List.length hbefore
  have hle := length_le_byteSize cs
  rw [List.length_append] at hlength
  unfold columnBehind
  omega

end Text

/-- A leaf that covers `inside`, behind `before`, as the tree tells it: offsets in bytes, rows by
    the newlines before it, columns by the bytes since the last of them. -/
structure TreeLabel.PlacedIn (l : TreeLabel) (chars before inside : List Char) : Prop where
  range : before ++ inside <+: chars
  startByte : l.startByte.toNat = Text.byteSize before
  endByte : l.endByte.toNat = Text.byteSize (before ++ inside)
  row : l.row.toNat = before.count '\n'
  column : l.column.toNat = Text.byteSize (Text.openLine before)

instance (l : TreeLabel) (chars before inside : List Char) :
    Decidable (l.PlacedIn chars before inside) :=
  decidable_of_iff (before ++ inside <+: chars ∧ l.startByte.toNat = Text.byteSize before ∧
      l.endByte.toNat = Text.byteSize (before ++ inside) ∧ l.row.toNat = before.count '\n' ∧
      l.column.toNat = Text.byteSize (Text.openLine before))
    ⟨fun ⟨h₁, h₂, h₃, h₄, h₅⟩ => ⟨h₁, h₂, h₃, h₄, h₅⟩, fun h => ⟨h.1, h.2, h.3, h.4, h.5⟩⟩

/-- The position of a node is the number `v`. -/
def Position.At {ν : Type} [SyntaxNode ν] (p : Position) (n : ν) (v : Nat) : Prop :=
  ∃ w, p.get n = .ok w ∧ w.toNat = v

/-- The position property of a node shows the number `v`. -/
def Position.Shows {ν : Type} [SyntaxNode ν] (p : Position) (n : ν) (v : Nat) : Prop :=
  Position.property? n p.name = .ok (some (.int v))

theorem Position.signed_eq {w : UInt64} (h : w.toNat < 2 ^ 63) : signed w = w.toNat := by
  unfold signed
  have hbits : 2 * w.toBitVec.toNat < 2 ^ 64 := by
    rw [UInt64.toNat_toBitVec]
    omega
  exact BitVec.toInt_eq_toNat_of_lt hbits

theorem Position.at_of_get {ν : Type} [SyntaxNode ν] {p : Position} {n : ν} {w : UInt64}
    (h : p.get n = .ok w) : p.At n w.toNat := ⟨w, h, rfl⟩

/-- A number that a signed word can hold is shown as it is. -/
theorem Position.At.shows {ν : Type} [SyntaxNode ν] {p : Position} {n : ν} {v : Nat}
    (h : p.At n v) (hv : v < 2 ^ 63) : p.Shows n v := by
  obtain ⟨w, hw, rfl⟩ := h
  rw [Shows, Element.property?_position hw, signed_eq hv]

theorem toNat_toUInt64 {n : Nat} (h : n < 2 ^ 64) : n.toUInt64.toNat = n :=
  UInt64.toNat_ofNat_of_lt' h

/-! ## The end of a token -/

theorem Token.endLine_eq_add (t : Token) :
    t.endLine = t.line + (t.text.toList.count '\n').toUInt64 := by
  have hpieces : (Text.splitList '\n' t.text.toList).length.toUInt64 =
      (t.text.toList.count '\n').toUInt64 + 1 := by
    rw [Text.length_splitList]
    exact UInt64.ofNat_add _ _
  rw [endLine, hpieces, ← UInt64.add_assoc, UInt64.add_sub_cancel]

theorem Token.endColumn_eq_ite (t : Token) :
    t.endColumn = if t.eof then t.column
      else if '\n' ∈ t.text.toList then (Text.columnBehind t.text.toList).toUInt64
      else t.column + t.text.toList.length.toUInt64 := by
  unfold endColumn
  split
  · rfl
  · cases hcut : Text.rsplitList? '\n' t.text.toList with
    | none => rw [if_neg (Text.rsplitList?_eq_none hcut)]
    | some parts =>
      obtain ⟨hmem, hopen⟩ := Text.openLine_of_rsplitList? hcut
      rw [if_pos hmem, Text.columnBehind, hopen]

/-! ## Leaves as tokens -/

namespace TreeNode

variable {ctx : TreeContext} {l : TreeLabel} {before inside : List Char}

/-- A leaf covers the characters between its offsets. -/
theorem sliceOf_eq (h : l.PlacedIn ctx.chars before inside) :
    sliceOf ctx l = String.ofList inside := by
  obtain ⟨after, hchars⟩ := h.range
  unfold sliceOf
  rw [h.startByte, h.endByte, ← hchars, Text.slice?_append, Option.getD_some]

/-- The line before a leaf is cut where it begins, so the column counts characters. -/
theorem charColumn_toNat (h : l.PlacedIn ctx.chars before inside)
    (hsize : Text.byteSize ctx.chars < 2 ^ 63) :
    (charColumn ctx l).toNat = Text.columnBehind before := by
  obtain ⟨after, hchars⟩ := h.range
  obtain ⟨above, habove⟩ := Text.exists_eq_append_openLine before
  have hsum :
      Text.byteSize before = Text.byteSize above + Text.byteSize (Text.openLine before) := by
    rw [← Text.byteSize_append, ← habove]
  -- going back by the byte column ends behind `above`, where the line of the leaf begins
  have hslice : Text.slice? ctx.chars (l.startByte.toNat - l.column.toNat) l.startByte.toNat =
      some (Text.openLine before) := by
    have hcut := Text.slice?_append above (Text.openLine before) (inside ++ after)
    rwa [← habove, ← List.append_assoc, hchars, ← Nat.add_sub_cancel (n := Text.byteSize above),
      ← hsum, ← h.column, ← h.startByte] at hcut
  have hle := Text.columnBehind_le before
  have hbefore := Text.byteSize_le_of_prefix ((List.prefix_append before inside).trans h.range)
  unfold charColumn
  dsimp only
  rw [hslice]
  exact toNat_toUInt64 (by unfold Text.columnBehind at hle; omega)

theorem row_succ_toNat (h : l.PlacedIn ctx.chars before inside)
    (hsize : Text.byteSize ctx.chars < 2 ^ 63) : (l.row + 1).toNat = Text.lineBehind before := by
  have hle := Text.lineBehind_le before
  have hbefore := Text.byteSize_le_of_prefix ((List.prefix_append before inside).trans h.range)
  unfold Text.lineBehind at hle ⊢
  rw [UInt64.toNat_add, h.row, UInt64.toNat_one, Nat.add_comm, Nat.mod_eq_of_lt (by omega)]

/-- A leaf is a token with its text, and one that is the end of the input has none. -/
theorem exists_tokenOf_eq (h : l.PlacedIn ctx.chars before inside) :
    ∃ eof, tokenOf ctx l = ⟨l.row + 1, charColumn ctx l, String.ofList inside, eof⟩ ∧
      (eof = true → inside = []) := by
  unfold tokenOf
  dsimp only
  split
  · next hempty =>
    have hinside : inside = [] := by
      refine Text.eq_nil_of_byteSize_append_eq (a := before) ?_
      rw [← h.endByte, ← h.startByte, hempty.1]
    rw [hinside]
    exact ⟨true, rfl, fun _ => rfl⟩
  · rw [sliceOf_eq h]
    exact ⟨false, rfl, fun hfalse => nomatch hfalse⟩

/-- A token ends on the line of the place behind it. -/
theorem endLine_tokenOf (h : l.PlacedIn ctx.chars before inside)
    (hsize : Text.byteSize ctx.chars < 2 ^ 63) :
    (tokenOf ctx l).endLine.toNat = Text.lineBehind (before ++ inside) := by
  obtain ⟨eof, htoken, -⟩ := exists_tokenOf_eq h
  have hle := Text.lineBehind_le (before ++ inside)
  have hrange := Text.byteSize_le_of_prefix h.range
  rw [Text.lineBehind_append] at hle ⊢
  have hcount : (inside.count '\n').toUInt64.toNat = inside.count '\n' :=
    toNat_toUInt64 (by omega)
  rw [htoken, Token.endLine_eq_add, String.toList_ofList, UInt64.toNat_add,
    row_succ_toNat h hsize, hcount, Nat.mod_eq_of_lt (by omega)]

/-- A token ends in the column of the place behind it. -/
theorem endColumn_tokenOf (h : l.PlacedIn ctx.chars before inside)
    (hsize : Text.byteSize ctx.chars < 2 ^ 63) :
    (tokenOf ctx l).endColumn.toNat = Text.columnBehind (before ++ inside) := by
  obtain ⟨eof, htoken, heof⟩ := exists_tokenOf_eq h
  have hle := Text.columnBehind_le (before ++ inside)
  have hrange := Text.byteSize_le_of_prefix h.range
  have hcolumn := charColumn_toNat h hsize
  rw [htoken, Token.endColumn_eq_ite, String.toList_ofList]
  cases eof with
  | true =>
    rw [heof rfl, List.append_nil]
    exact hcolumn
  | false =>
    rw [Text.columnBehind_append] at hle ⊢
    rw [if_neg Bool.false_ne_true]
    split
    · next hnewline =>
      rw [if_pos hnewline] at hle
      exact toNat_toUInt64 (Nat.lt_of_le_of_lt hle (by omega))
    · next hnewline =>
      rw [if_neg hnewline] at hle
      have hlength : inside.length.toUInt64.toNat = inside.length := toNat_toUInt64 (by omega)
      rw [UInt64.toNat_add, hcolumn, hlength, Nat.mod_eq_of_lt (by omega)]

/-! ## Positions of nodes -/

theorem startLine_at (hsize : Text.byteSize ctx.chars < 2 ^ 63) {n : TreeNode ctx}
    (hfirst : n.tree.firstLeaf.PlacedIn ctx.chars before inside) :
    Position.startLine.At n (Text.lineBehind before) ∧
      Position.startColumn.At n (Text.columnBehind before) := by
  obtain ⟨eof, htoken, -⟩ := exists_tokenOf_eq hfirst
  have hstart : Position.startOf n =
      .ok ⟨n.tree.firstLeaf.row + 1, charColumn ctx n.tree.firstLeaf, String.ofList inside, eof⟩ :=
    congrArg Except.ok htoken
  constructor
  · rw [← row_succ_toNat hfirst hsize]
    refine Position.at_of_get ?_
    rw [Position.get, hstart]
    rfl
  · rw [← charColumn_toNat hfirst hsize]
    refine Position.at_of_get ?_
    rw [Position.get, hstart]
    rfl

theorem endLine_at (hsize : Text.byteSize ctx.chars < 2 ^ 63) {n : TreeNode ctx}
    (hlast : n.tree.lastLeaf.PlacedIn ctx.chars before inside)
    (hwidth : n.tree.label.startByte ≠ n.tree.label.endByte) :
    Position.endLine.At n (Text.lineBehind (before ++ inside)) ∧
      Position.endColumn.At n (Text.columnBehind (before ++ inside)) := by
  have hstop : Position.stopOf n = .ok (.token (tokenOf ctx n.tree.lastLeaf)) := by
    have hlast? : SyntaxNode.last? n = some (tokenOf ctx n.tree.lastLeaf) := if_neg hwidth
    rw [Position.stopOf, hlast?]
  constructor
  · rw [← endLine_tokenOf hlast hsize]
    refine Position.at_of_get ?_
    rw [Position.get, hstop]
    rfl
  · rw [← endColumn_tokenOf hlast hsize]
    refine Position.at_of_get ?_
    rw [Position.get, hstop]
    rfl

/-- The positions of a node are those of its first leaf and, if the node is not empty, of the place
    behind its last leaf. They are shown so: columns always, and lines that a signed word can
    hold. -/
theorem shows_of_placedIn {ctx : TreeContext} (hsize : Text.byteSize ctx.chars < 2 ^ 63)
    (n : TreeNode ctx) {before inside before' inside' : List Char}
    (hfirst : n.tree.firstLeaf.PlacedIn ctx.chars before inside)
    (hlast : n.tree.lastLeaf.PlacedIn ctx.chars before' inside') :
    (Position.startLine.At n (Text.lineBehind before) ∧
        Position.startColumn.At n (Text.columnBehind before)) ∧
      (Text.lineBehind before < 2 ^ 63 → Position.startLine.Shows n (Text.lineBehind before)) ∧
      Position.startColumn.Shows n (Text.columnBehind before) ∧
      (n.tree.label.startByte ≠ n.tree.label.endByte →
        (Position.endLine.At n (Text.lineBehind (before' ++ inside')) ∧
            Position.endColumn.At n (Text.columnBehind (before' ++ inside'))) ∧
          (Text.lineBehind (before' ++ inside') < 2 ^ 63 →
            Position.endLine.Shows n (Text.lineBehind (before' ++ inside'))) ∧
          Position.endColumn.Shows n (Text.columnBehind (before' ++ inside'))) := by
  have hcolumn : ∀ cs, cs <+: ctx.chars → Text.columnBehind cs < 2 ^ 63 := fun cs hcs =>
    Nat.lt_of_le_of_lt ((Text.columnBehind_le cs).trans (Text.byteSize_le_of_prefix hcs)) hsize
  obtain ⟨hline, hstart⟩ := startLine_at hsize hfirst
  have hbefore := (List.prefix_append before inside).trans hfirst.range
  refine ⟨⟨hline, hstart⟩, hline.shows, hstart.shows (hcolumn _ hbefore), fun hwidth => ?_⟩
  obtain ⟨hline', hend⟩ := endLine_at hsize hlast hwidth
  exact ⟨⟨hline', hend⟩, hline'.shows, hend.shows (hcolumn _ hlast.range)⟩

/-- A name behind a wide character, and a text over two lines with wide characters. -/
def wideText : TreeContext := ⟨"é;a='é\nß'".toList, 12, ∅⟩

def widePair : TreeNode wideText :=
  ⟨.node ⟨"pair", true, none, 3, 12, 0, 3⟩
    [.node ⟨"name", true, none, 3, 4, 0, 3⟩ [],
      .node ⟨"=", false, none, 4, 5, 0, 4⟩ [],
      .node ⟨"text", true, none, 5, 12, 0, 5⟩ []]⟩

theorem shows_widePair :
    Text.byteSize wideText.chars < 2 ^ 63 ∧
      widePair.tree.firstLeaf.PlacedIn wideText.chars "é;".toList "a".toList ∧
      widePair.tree.lastLeaf.PlacedIn wideText.chars "é;a=".toList "'é\nß'".toList ∧
      Position.startLine.Shows widePair 1 ∧ Position.startColumn.Shows widePair 2 ∧
      Position.endLine.Shows widePair 2 ∧ Position.endColumn.Shows widePair 2 := by
  have hsize : Text.byteSize wideText.chars < 2 ^ 63 := by decide
  have hfirst : widePair.tree.firstLeaf.PlacedIn wideText.chars "é;".toList "a".toList :=
    ⟨by decide, by decide, by decide, by decide, by decide⟩
  have hlast : widePair.tree.lastLeaf.PlacedIn wideText.chars "é;a=".toList "'é\nß'".toList :=
    ⟨by decide, by decide, by decide, by decide, by decide⟩
  obtain ⟨-, hline, hcolumn, hend⟩ := shows_of_placedIn hsize widePair hfirst hlast
  obtain ⟨-, hline', hcolumn'⟩ := hend (by decide)
  exact ⟨hsize, hfirst, hlast, hline (by decide), hcolumn, hline' (by decide), hcolumn'⟩

end TreeNode

end SourceOutline
