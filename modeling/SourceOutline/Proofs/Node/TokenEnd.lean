import SourceOutline.Node.Graph
import SourceOutline.Proofs.SyntaxTree.Positions

/-
  A node ends where its last token starts, moved on over the text of the token character by
  character (`get_eq_endPlace`).

  The line of the end is found by counting newlines, the column from what stands behind the last of
  them, or from the whole text if there is none. Both are what one scan of the text gives
  (`foldl_advance`). The scan counts without a limit and the positions are words, so what they give
  is the scan's result up to multiples of 2 ^ 64, however far it went on the way.
-/

namespace SourceOutline

/-! ## Scanning a text -/

namespace Text

/-- Line and column one character further: a newline begins the next line. -/
def advance (place : Nat × Nat) (c : Char) : Nat × Nat :=
  if c = '\n' then (place.1 + 1, 0) else (place.1, place.2 + 1)

theorem columnBehind_concat (cs : List Char) (c : Char) :
    columnBehind (cs ++ [c]) = if c = '\n' then 0 else columnBehind cs + 1 := by
  unfold columnBehind
  rw [openLine_concat]
  split
  · rfl
  · rw [List.length_append, List.length_singleton]

theorem foldl_advance (cs : List Char) (place : Nat × Nat) :
    cs.foldl advance place =
      (place.1 + cs.count '\n', if '\n' ∈ cs then columnBehind cs else place.2 + cs.length) := by
  induction cs using List.reverseRecOn with
  | nil => rfl
  | append_singleton cs c ih =>
    rw [List.foldl_concat, ih, advance, columnBehind_concat, List.count_append, List.length_append,
      List.length_singleton]
    by_cases hc : c = '\n'
    · have hcount : [c].count '\n' = 1 := by rw [hc]; rfl
      have hmem : '\n' ∈ cs ++ [c] := by simp [hc]
      rw [if_pos hc, if_pos hc, if_pos hmem, hcount, Nat.add_assoc]
    · have hcount : [c].count '\n' = 0 := List.count_eq_zero.2 (by simpa using Ne.symm hc)
      have hmem : '\n' ∈ cs ++ [c] ↔ '\n' ∈ cs := by simp [Ne.symm hc]
      rw [if_neg hc, if_neg hc, hcount, Nat.add_zero (cs.count _)]
      simp only [hmem]
      split
      · rfl
      · rw [Nat.add_assoc]

end Text

/-! ## The end of a token -/

namespace Token

/-- Tokens as they are made: one with a text, or the end of the input, which has none. -/
inductive Built : Token → Prop where
  | text (line column : UInt64) (text : String) : Built ⟨line, column, text, false⟩
  | endOfInput (line column : UInt64) : Built ⟨line, column, "", true⟩

/-- Line and column behind a token, counted without a limit. -/
def endPlace (t : Token) : Nat × Nat :=
  t.text.toList.foldl Text.advance (t.line.toNat, t.column.toNat)

theorem toUInt64_toNat_add (w : UInt64) (n : Nat) : (w.toNat + n).toUInt64 = w + n.toUInt64 := by
  show UInt64.ofNat (w.toNat + n) = w + UInt64.ofNat n
  rw [UInt64.ofNat_add, UInt64.ofNat_toNat]

theorem endLine_eq (t : Token) : t.endLine = t.endPlace.1.toUInt64 := by
  rw [endPlace, Text.foldl_advance, toUInt64_toNat_add, endLine_eq_add]

theorem endColumn_eq {t : Token} (h : t.Built) : t.endColumn = t.endPlace.2.toUInt64 := by
  cases h with
  | text line column text =>
    rw [endPlace, Text.foldl_advance, endColumn_eq_ite, if_neg Bool.false_ne_true]
    dsimp only
    split
    · rfl
    · exact (toUInt64_toNat_add column _).symm
  | endOfInput line column =>
    show column = UInt64.ofNat column.toNat
    rw [UInt64.ofNat_toNat]

end Token

/-! ## The end of a node -/

/-- A node that has a last token ends behind it, and shows so the numbers that a signed word can
    hold. -/
theorem Position.get_eq_endPlace {ν : Type} [SyntaxNode ν] (n : ν) (t : Token)
    (ht : SyntaxNode.last? n = some t) (hbuilt : t.Built) :
    (Position.endLine.get n = .ok t.endPlace.1.toUInt64 ∧
        Position.endColumn.get n = .ok t.endPlace.2.toUInt64) ∧
      (t.endPlace.1 < 2 ^ 64 → t.endPlace.2 < 2 ^ 64 →
        Position.endLine.At n t.endPlace.1 ∧ Position.endColumn.At n t.endPlace.2) ∧
      (t.endPlace.1 < 2 ^ 63 → Position.endLine.Shows n t.endPlace.1) ∧
      (t.endPlace.2 < 2 ^ 63 → Position.endColumn.Shows n t.endPlace.2) := by
  have hstop : Position.stopOf n = .ok (.token t) := by rw [stopOf, ht]
  have hline : Position.endLine.get n = .ok t.endPlace.1.toUInt64 := by
    rw [get, hstop, ← t.endLine_eq]
    rfl
  have hcolumn : Position.endColumn.get n = .ok t.endPlace.2.toUInt64 := by
    rw [get, hstop, ← Token.endColumn_eq hbuilt]
    rfl
  have hat : ∀ {p : Position} {v : Nat}, p.get n = .ok v.toUInt64 → v < 2 ^ 64 → p.At n v :=
    fun hget hv => ⟨_, hget, toNat_toUInt64 hv⟩
  refine ⟨⟨hline, hcolumn⟩, fun h₁ h₂ => ⟨hat hline h₁, hat hcolumn h₂⟩, fun h => ?_, fun h => ?_⟩
  · exact (hat hline (by omega)).shows h
  · exact (hat hcolumn (by omega)).shows h

/-- A token in the last column of the last line but one, with wide characters before and behind a
    newline. -/
def lateToken : Token := ⟨0xFFFFFFFFFFFFFFFE, 0xFFFFFFFFFFFFFFFF, "ü\nß!", false⟩

def lateGraph : NodeGraph := .ofVector #v[
  { rule := "text", interval := ⟨0, 6⟩, text := "ü\nß!", last := some lateToken }]

theorem Position.get_eq_endPlace_lateToken :
    SyntaxNode.last? (⟨(0 : Fin 1)⟩ : GraphNode lateGraph) = some lateToken ∧ lateToken.Built ∧
      lateToken.endPlace = (2 ^ 64 - 1, 2) ∧
      Position.endLine.get (⟨(0 : Fin 1)⟩ : GraphNode lateGraph) = .ok 0xFFFFFFFFFFFFFFFF ∧
      Position.endColumn.Shows (⟨(0 : Fin 1)⟩ : GraphNode lateGraph) 2 := by
  have hlast : SyntaxNode.last? (⟨(0 : Fin 1)⟩ : GraphNode lateGraph) = some lateToken := rfl
  have hbuilt : lateToken.Built := .text ..
  have hplace : lateToken.endPlace = (2 ^ 64 - 1, 2) := by decide +kernel
  obtain ⟨⟨hline, -⟩, -, -, hshows⟩ := get_eq_endPlace _ lateToken hlast hbuilt
  rw [hplace] at hline hshows
  exact ⟨hlast, hbuilt, hplace, hline, hshows (by omega)⟩

end SourceOutline
