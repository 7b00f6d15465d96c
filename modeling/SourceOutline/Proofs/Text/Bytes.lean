import Mathlib.Data.List.DropRight
import Mathlib.Data.List.Induction
import SourceOutline.Text.Bytes
import SourceOutline.Text.Split

/-
  Byte offsets of a text that lie between two characters. The offset behind `before` is the size of
  `before`, and a text is cut there into what stands before and the rest (`splitAtByte?_append`),
  and likewise between two offsets (`slice?_append`).

  A place is known by its line, which counts newlines, and by the part of the last line that stands
  before it (`openLine`). Cutting a text at newlines gives both (`length_splitList`,
  `openLine_of_rsplitList?`).
-/

namespace SourceOutline.Text

theorem byteSize_cons (c : Char) (cs : List Char) :
    byteSize (c :: cs) = c.utf8Size + byteSize cs := rfl

theorem byteSize_append (a b : List Char) : byteSize (a ++ b) = byteSize a + byteSize b := by
  induction a with
  | nil => exact (Nat.zero_add _).symm
  | cons c a ih => rw [List.cons_append, byteSize_cons, byteSize_cons, ih, Nat.add_assoc]

theorem length_le_byteSize (cs : List Char) : cs.length ≤ byteSize cs := by
  induction cs with
  | nil => exact Nat.le_refl 0
  | cons c cs ih =>
    have hc := c.utf8Size_pos
    rw [List.length_cons, byteSize_cons]
    omega

theorem byteSize_le_of_prefix {a b : List Char} (h : a <+: b) : byteSize a ≤ byteSize b := by
  obtain ⟨rest, rfl⟩ := h
  rw [byteSize_append]
  exact Nat.le_add_right ..

theorem eq_nil_of_byteSize_append_eq {a b : List Char} (h : byteSize (a ++ b) = byteSize a) :
    b = [] := by
  have hlength := length_le_byteSize b
  rw [byteSize_append] at h
  exact List.length_eq_zero_iff.1 (by omega)

theorem splitAtByte?_zero (cs : List Char) : splitAtByte? 0 cs = some ([], cs) := by
  cases cs <;> rfl

theorem splitAtByte?_append (a b : List Char) :
    splitAtByte? (byteSize a) (a ++ b) = some (a, b) := by
  induction a with
  | nil => exact splitAtByte?_zero b
  | cons c a ih =>
    have hc := c.utf8Size_pos
    obtain ⟨n, hn⟩ : ∃ n, byteSize (c :: a) = n + 1 := by
      refine ⟨byteSize (c :: a) - 1, ?_⟩
      rw [byteSize_cons]
      omega
    rw [hn, List.cons_append, splitAtByte?, ← hn, byteSize_cons, if_pos (Nat.le_add_right ..),
      Nat.add_sub_cancel_left, ih]
    rfl

theorem slice?_append (a b c : List Char) :
    slice? (a ++ b ++ c) (byteSize a) (byteSize (a ++ b)) = some b := by
  have hle : ¬ byteSize (a ++ b) < byteSize a := by
    rw [byteSize_append]
    omega
  unfold slice?
  rw [if_neg hle, List.append_assoc, splitAtByte?_append, byteSize_append, Nat.add_sub_cancel_left]
  show (splitAtByte? (byteSize b) (b ++ c)).bind _ = _
  rw [splitAtByte?_append]
  rfl

/-! ## Lines -/

/-- The part of a text after its last newline, or all of it. -/
def openLine (cs : List Char) : List Char := cs.rtakeWhile fun c => c ≠ '\n'

theorem exists_eq_append_openLine (cs : List Char) : ∃ before, cs = before ++ openLine cs :=
  ⟨_, List.rdropWhile_append_rtakeWhile.symm⟩

theorem openLine_concat (cs : List Char) (c : Char) :
    openLine (cs ++ [c]) = if c = '\n' then [] else openLine cs ++ [c] := by
  unfold openLine
  rw [List.rtakeWhile_concat]
  by_cases hc : c = '\n' <;> simp [hc]

theorem openLine_append_of_mem {b : List Char} (h : '\n' ∈ b) (a : List Char) :
    openLine (a ++ b) = openLine b := by
  induction b using List.reverseRecOn with
  | nil => simp at h
  | append_singleton b c ih =>
    rw [← List.append_assoc, openLine_concat, openLine_concat]
    by_cases hc : c = '\n'
    · rw [if_pos hc, if_pos hc]
    · have hb : '\n' ∈ b := by
        rcases List.mem_append.1 h with h | h
        · exact h
        · exact absurd (List.mem_singleton.1 h).symm hc
      rw [if_neg hc, if_neg hc, ih hb]

theorem openLine_append_of_not_mem {b : List Char} (h : '\n' ∉ b) (a : List Char) :
    openLine (a ++ b) = openLine a ++ b := by
  induction b using List.reverseRecOn with
  | nil => rw [List.append_nil, List.append_nil]
  | append_singleton b c ih =>
    have hc : c ≠ '\n' := by
      rintro rfl
      exact h (by simp)
    rw [← List.append_assoc, openLine_concat, if_neg hc, ih fun hb => h (List.mem_append_left _ hb),
      List.append_assoc]

/-! ## Cutting at newlines -/

/-- There is one piece more than separators. -/
theorem length_splitList {α : Type} [DecidableEq α] (sep : α) (cs : List α) :
    (splitList sep cs).length = cs.count sep + 1 := by
  induction cs with
  | nil => rfl
  | cons c cs ih =>
    rw [splitList]
    cases hpieces : splitList sep cs with
    | nil => simp [hpieces] at ih
    | cons piece pieces =>
      rw [hpieces] at ih
      dsimp only
      by_cases hc : c = sep
      · rw [if_pos hc, List.length_cons, ih, hc, List.count_cons_self]
      · rw [if_neg hc, List.count_cons_of_ne hc, ← ih]
        rfl

theorem rsplitList?_eq_none {α : Type} [DecidableEq α] {sep : α} {cs : List α}
    (h : rsplitList? sep cs = none) : sep ∉ cs := by
  induction cs with
  | nil => exact List.not_mem_nil
  | cons c cs ih =>
    rw [rsplitList?] at h
    cases hrest : rsplitList? sep cs with
    | some parts => simp [hrest] at h
    | none =>
      rw [hrest] at h
      have hc : c ≠ sep := by
        intro hc
        simp [hc] at h
      rw [List.mem_cons, not_or]
      exact ⟨hc.symm, ih hrest⟩

/-- The last separator is followed by none. -/
theorem rsplitList?_eq_some {α : Type} [DecidableEq α] {sep : α} {cs before behind : List α}
    (h : rsplitList? sep cs = some (before, behind)) :
    cs = before ++ sep :: behind ∧ sep ∉ behind := by
  induction cs generalizing before with
  | nil => cases h
  | cons c cs ih =>
    rw [rsplitList?] at h
    cases hrest : rsplitList? sep cs with
    | some parts =>
      rw [hrest] at h
      cases h
      obtain ⟨rfl, hbehind⟩ := ih hrest
      exact ⟨rfl, hbehind⟩
    | none =>
      rw [hrest] at h
      by_cases hc : c = sep
      · rw [if_pos hc] at h
        cases h
        exact ⟨by rw [hc, List.nil_append], rsplitList?_eq_none hrest⟩
      · rw [if_neg hc] at h
        cases h

theorem openLine_of_rsplitList? {cs before behind : List Char}
    (h : rsplitList? '\n' cs = some (before, behind)) : '\n' ∈ cs ∧ openLine cs = behind := by
  obtain ⟨rfl, hbehind⟩ := rsplitList?_eq_some h
  refine ⟨by simp, ?_⟩
  rw [List.append_cons, openLine_append_of_not_mem hbehind, openLine_concat, if_pos rfl,
    List.nil_append]

end SourceOutline.Text
