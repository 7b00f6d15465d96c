/-
  Finite maps from names, kept as a list of entries in strictly increasing code point order of the
  names. Of two values inserted under one name the later stays.
-/

namespace SourceOutline

structure NameMap (α : Type) where
  toList : List (String × α)
  sorted : toList.Pairwise (·.1 < ·.1)

namespace NameMap

variable {α : Type}

instance : EmptyCollection (NameMap α) := ⟨⟨[], .nil⟩⟩

def isEmpty (m : NameMap α) : Bool := m.toList.isEmpty

def insertSorted (k : String) (a : α) : List (String × α) → List (String × α)
  | [] => [(k, a)]
  | x :: xs =>
    if k < x.1 then (k, a) :: x :: xs
    else if k = x.1 then (k, a) :: xs
    else x :: insertSorted k a xs

theorem mem_insertSorted {k : String} {a : α} {x : String × α} {l : List (String × α)}
    (h : x ∈ insertSorted k a l) : x = (k, a) ∨ x ∈ l := by
  induction l with
  | nil => simpa [insertSorted] using h
  | cons y l ih =>
    unfold insertSorted at h
    split at h
    · simpa using h
    · split at h
      · rcases List.mem_cons.1 h with h | h <;> simp [h]
      · rcases List.mem_cons.1 h with h | h
        · simp [h]
        · rcases ih h with h | h <;> simp [h]

theorem pairwise_insertSorted (k : String) (a : α) {l : List (String × α)}
    (hl : l.Pairwise (·.1 < ·.1)) : (insertSorted k a l).Pairwise (·.1 < ·.1) := by
  induction l with
  | nil => simp [insertSorted]
  | cons y l ih =>
    rw [List.pairwise_cons] at hl
    unfold insertSorted
    split
    · next h =>
      refine List.pairwise_cons.2 ⟨?_, List.pairwise_cons.2 hl⟩
      intro z hz
      rcases List.mem_cons.1 hz with rfl | hz
      · exact h
      · exact String.lt_trans h (hl.1 z hz)
    · next h =>
      split
      · next heq => exact List.pairwise_cons.2 ⟨fun z hz => heq ▸ hl.1 z hz, hl.2⟩
      · next hne =>
        refine List.pairwise_cons.2 ⟨?_, ih hl.2⟩
        intro z hz
        rcases mem_insertSorted hz with rfl | hz
        · rcases Decidable.em (y.1 < k) with hy | hy
          · exact hy
          · exact absurd (String.le_antisymm (String.not_lt.1 hy) (String.not_lt.1 h)) hne
        · exact hl.1 z hz

def insert (m : NameMap α) (k : String) (a : α) : NameMap α :=
  ⟨insertSorted k a m.toList, pairwise_insertSorted k a m.sorted⟩

def ofList (l : List (String × α)) : NameMap α := l.foldl (fun m e => m.insert e.1 e.2) ∅

/-- No name has two entries. -/
theorem nodup_keys (m : NameMap α) : (m.toList.map Prod.fst).Nodup := by
  refine List.pairwise_map.2 (m.sorted.imp ?_)
  intro a b h hab
  exact String.lt_irrefl _ (hab ▸ h)

end NameMap

end SourceOutline
