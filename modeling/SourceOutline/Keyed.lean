/-
  Lists of items that carry their own key, in the order in which the keys were first put.

  `put` replaces the item of the same key where it stands, or appends the item; `find?` gives
  the first item of a key.

  Shown here:
  * `find?_put`: after `put` the new item answers at its key and nothing else changes.
  * `keys_put`: `put` leaves the keys alone, or adds a new one at the end.
  * `nodup_put`: distinct keys stay distinct.
-/

namespace SourceOutline.Keyed

variable {α κ : Type} [DecidableEq κ]

def find? (key : α → κ) (k : κ) (l : List α) : Option α :=
  l.find? fun a => key a = k

def put (key : α → κ) (a : α) : List α → List α
  | [] => [a]
  | b :: l => if key b = key a then a :: l else b :: put key a l

@[simp] theorem find?_nil (key : α → κ) (k : κ) : find? key k [] = none := rfl

theorem find?_cons (key : α → κ) (k : κ) (a : α) (l : List α) :
    find? key k (a :: l) = if key a = k then some a else find? key k l := by
  by_cases h : key a = k <;> simp [find?, h]

theorem find?_put (key : α → κ) (a : α) (k : κ) (l : List α) :
    find? key k (put key a l) = if key a = k then some a else find? key k l := by
  induction l with
  | nil => simp [put, find?_cons]
  | cons b l ih =>
    by_cases hb : key b = key a
    · by_cases ha : key a = k <;> simp [put, find?_cons, hb, ha]
    · by_cases ha : key a = k
      · have hbk : key b ≠ k := fun h => hb (h.trans ha.symm)
        simp [put, find?_cons, hbk, ih, ha]
      · simp [put, find?_cons, hb, ih, ha]

theorem key_of_find? {key : α → κ} {k : κ} {l : List α} {a : α} (h : find? key k l = some a) :
    key a = k := by
  simpa using List.find?_some h

theorem mem_of_find? {key : α → κ} {k : κ} {l : List α} {a : α} (h : find? key k l = some a) :
    a ∈ l :=
  List.mem_of_find?_eq_some h

theorem find?_eq_none_iff {key : α → κ} {k : κ} {l : List α} :
    find? key k l = none ↔ k ∉ l.map key := by
  simp [find?]

theorem find?_of_mem {key : α → κ} {l : List α} (hl : (l.map key).Nodup) {a : α} (ha : a ∈ l) :
    find? key (key a) l = some a := by
  induction l with
  | nil => simp at ha
  | cons b l ih =>
    rw [List.map_cons, List.nodup_cons] at hl
    rw [find?_cons]
    rcases List.mem_cons.1 ha with rfl | ha
    · simp
    · have hne : key b ≠ key a := fun h => hl.1 (h ▸ List.mem_map_of_mem ha)
      simp [hne, ih hl.2 ha]

theorem keys_put (key : α → κ) (a : α) (l : List α) :
    (put key a l).map key = if key a ∈ l.map key then l.map key else l.map key ++ [key a] := by
  induction l with
  | nil => simp [put]
  | cons b l ih =>
    by_cases hb : key b = key a
    · simp [put, hb]
    · have hb' : ¬ key a = key b := fun h => hb h.symm
      by_cases ha : key a ∈ l.map key
      · simp [put, hb, ih, ha]
      · simp [put, hb, ih, ha, hb']

theorem nodup_put {key : α → κ} {l : List α} (hl : (l.map key).Nodup) (a : α) :
    ((put key a l).map key).Nodup := by
  rw [keys_put]
  split
  · exact hl
  · next h =>
    refine List.nodup_append.2 ⟨hl, by simp, ?_⟩
    intro x hx y hy
    simp only [List.mem_singleton] at hy
    exact fun hxy => h (hy ▸ hxy ▸ hx)

theorem eq_or_mem_of_mem_put {key : α → κ} {a x : α} {l : List α} (h : x ∈ put key a l) :
    x = a ∨ x ∈ l := by
  induction l with
  | nil => exact .inl (List.mem_singleton.1 h)
  | cons b l ih =>
    rw [put] at h
    split at h
    · rcases List.mem_cons.1 h with hx | hx
      · exact .inl hx
      · exact .inr (List.mem_cons_of_mem b hx)
    · rcases List.mem_cons.1 h with hx | hx
      · exact .inr (hx ▸ List.mem_cons_self)
      · exact (ih hx).imp_right (List.mem_cons_of_mem b)

theorem put_ne_nil (key : α → κ) (a : α) (l : List α) : put key a l ≠ [] := by
  cases l with
  | nil => exact List.cons_ne_nil a []
  | cons b l =>
    rw [put]
    split <;> exact List.cons_ne_nil _ _

theorem put_of_not_mem {key : α → κ} {a : α} {l : List α} (h : key a ∉ l.map key) :
    put key a l = l ++ [a] := by
  induction l with
  | nil => rfl
  | cons b l ih =>
    rw [List.map_cons, List.mem_cons, not_or] at h
    rw [put, if_neg (Ne.symm h.1), ih h.2, List.cons_append]

/-- Where the keys are distinct, an item replaces the one of its key in place. -/
theorem put_of_getElem? {key : α → κ} {l : List α} (hl : (l.map key).Nodup) {a b : α} {i : Nat}
    (hb : l[i]? = some b) (hkey : key b = key a) : put key a l = l.set i a := by
  induction l generalizing i with
  | nil => cases hb
  | cons c l ih =>
    rw [List.map_cons, List.nodup_cons] at hl
    rw [put]
    cases i with
    | zero =>
      obtain rfl := Option.some.inj hb
      rw [if_pos hkey, List.set_cons_zero]
    | succ i =>
      have hmem : key a ∈ l.map key := hkey ▸ List.mem_map_of_mem (List.mem_of_getElem? hb)
      have hne : key c ≠ key a := fun h => hl.1 (h ▸ hmem)
      rw [if_neg hne, List.set_cons_succ, ih hl.2 hb]

end SourceOutline.Keyed
