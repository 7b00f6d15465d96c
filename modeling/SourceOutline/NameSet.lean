/-
  Finite sets of names, kept as a strictly increasing list in code point order. Two sets with the
  same members are the same value (`NameSet.ext`), and `toList` is the order in which they print.
-/

namespace SourceOutline

structure NameSet where
  toList : List String
  sorted : toList.Pairwise (· < ·)
deriving DecidableEq

namespace NameSet

instance : Membership String NameSet := ⟨fun s k => k ∈ s.toList⟩

instance (k : String) (s : NameSet) : Decidable (k ∈ s) :=
  inferInstanceAs (Decidable (k ∈ s.toList))

theorem mem_def {k : String} {s : NameSet} : k ∈ s ↔ k ∈ s.toList := Iff.rfl

instance : EmptyCollection NameSet := ⟨⟨[], .nil⟩⟩

def isEmpty (s : NameSet) : Bool := s.toList.isEmpty

/-- The place of `k` in an increasing list; nothing changes if it is there already. -/
def insertSorted (k : String) : List String → List String
  | [] => [k]
  | x :: xs => if k < x then k :: x :: xs else if k = x then x :: xs else x :: insertSorted k xs

theorem lt_of_not_lt_of_ne {a b : String} (h : ¬ a < b) (hne : a ≠ b) : b < a := by
  rcases Decidable.em (b < a) with hb | hb
  · exact hb
  · exact absurd (String.le_antisymm (String.not_lt.1 hb) (String.not_lt.1 h)) hne

theorem mem_insertSorted {k x : String} {l : List String} :
    x ∈ insertSorted k l ↔ x = k ∨ x ∈ l := by
  induction l with
  | nil => simp [insertSorted]
  | cons y l ih =>
    unfold insertSorted
    split
    · simp
    · split
      · next h => subst h; simp
      · simp only [List.mem_cons, ih]
        constructor
        · rintro (h | h | h) <;> simp [h]
        · rintro (h | h | h) <;> simp [h]

theorem pairwise_insertSorted (k : String) {l : List String} (hl : l.Pairwise (· < ·)) :
    (insertSorted k l).Pairwise (· < ·) := by
  induction l with
  | nil => simp [insertSorted]
  | cons y l ih =>
    rw [List.pairwise_cons] at hl
    unfold insertSorted
    split
    · next h =>
      refine List.pairwise_cons.2 ⟨?_, List.pairwise_cons.2 hl⟩
      intro z hz
      rcases List.mem_cons.1 hz with rfl | hz
      · exact h
      · exact String.lt_trans h (hl.1 z hz)
    · next h =>
      split
      · exact List.pairwise_cons.2 hl
      · next hne =>
        refine List.pairwise_cons.2 ⟨?_, ih hl.2⟩
        intro z hz
        rcases mem_insertSorted.1 hz with rfl | hz
        · exact lt_of_not_lt_of_ne h hne
        · exact hl.1 z hz

def insert (s : NameSet) (k : String) : NameSet :=
  ⟨insertSorted k s.toList, pairwise_insertSorted k s.sorted⟩

def ofList (l : List String) : NameSet := l.foldl insert ∅

def filter (s : NameSet) (p : String → Bool) : NameSet :=
  ⟨s.toList.filter p, s.sorted.filter p⟩

/-- The names of `s` that are not in `t`. -/
def diff (s t : NameSet) : NameSet := s.filter fun k => k ∉ t

def union (s t : NameSet) : NameSet := t.toList.foldl insert s

@[simp] theorem not_mem_empty (k : String) : k ∉ (∅ : NameSet) := by
  show k ∉ ([] : List String)
  simp

@[simp] theorem mem_insert {s : NameSet} {k x : String} : x ∈ s.insert k ↔ x = k ∨ x ∈ s :=
  mem_insertSorted

@[simp] theorem mem_filter {s : NameSet} {p : String → Bool} {x : String} :
    x ∈ s.filter p ↔ x ∈ s ∧ p x = true := by
  simp [mem_def, filter]

@[simp] theorem mem_diff {s t : NameSet} {x : String} : x ∈ s.diff t ↔ x ∈ s ∧ x ∉ t := by
  simp [diff]

theorem mem_foldl_insert {l : List String} {s : NameSet} {x : String} :
    x ∈ l.foldl insert s ↔ x ∈ s ∨ x ∈ l := by
  induction l generalizing s with
  | nil => simp
  | cons y l ih =>
    simp only [List.foldl_cons, ih, mem_insert, List.mem_cons]
    constructor
    · rintro ((h | h) | h) <;> simp [h]
    · rintro (h | h | h) <;> simp [h]

@[simp] theorem mem_ofList {l : List String} {x : String} : x ∈ ofList l ↔ x ∈ l := by
  simp [ofList, mem_foldl_insert]

@[simp] theorem mem_union {s t : NameSet} {x : String} : x ∈ s.union t ↔ x ∈ s ∨ x ∈ t :=
  mem_foldl_insert

theorem isEmpty_iff {s : NameSet} : s.isEmpty = true ↔ ∀ x, x ∉ s := by
  simp [isEmpty, mem_def, List.eq_nil_iff_forall_not_mem]

/-- Two increasing lists with the same members are equal. -/
theorem eq_of_sorted_of_mem_iff {l l' : List String} (hl : l.Pairwise (· < ·))
    (hl' : l'.Pairwise (· < ·)) (h : ∀ x, x ∈ l ↔ x ∈ l') : l = l' := by
  induction l generalizing l' with
  | nil => exact (List.eq_nil_iff_forall_not_mem.2 fun x hx => by simpa using (h x).2 hx).symm
  | cons a l ih =>
    cases l' with
    | nil => exact absurd ((h a).1 (by simp)) (by simp)
    | cons b l' =>
      rw [List.pairwise_cons] at hl hl'
      have hab : a = b := by
        rcases List.mem_cons.1 ((h a).1 (by simp)) with hab | ha
        · exact hab
        · rcases List.mem_cons.1 ((h b).2 (by simp)) with hba | hb
          · exact hba.symm
          · exact absurd (hl.1 b hb) (String.lt_asymm (hl'.1 a ha))
      subst hab
      refine congrArg (a :: ·) (ih hl.2 hl'.2 fun x => ?_)
      constructor
      · intro hx
        rcases List.mem_cons.1 ((h x).1 (List.mem_cons_of_mem _ hx)) with rfl | hx'
        · exact absurd (hl.1 x hx) (String.lt_irrefl x)
        · exact hx'
      · intro hx
        rcases List.mem_cons.1 ((h x).2 (List.mem_cons_of_mem _ hx)) with rfl | hx'
        · exact absurd (hl'.1 x hx) (String.lt_irrefl x)
        · exact hx'

theorem ext {s t : NameSet} (h : ∀ x, x ∈ s ↔ x ∈ t) : s = t := by
  obtain ⟨l, hl⟩ := s
  obtain ⟨l', hl'⟩ := t
  have : l = l' := eq_of_sorted_of_mem_iff hl hl' h
  subst this
  rfl

end NameSet

end SourceOutline
