import Mathlib.Data.List.Forall2
import SourceOutline.Json.Record

/-
  The forms in which a record may be given: an object whose declared members stand in any order
  among members of other keys, or an array of the fields in the order of their declaration
  (`RecordForm`). Reading the fields gives the same in every form (`RecordForm.fields?_eq`). A field
  that holds a list may be left out if the list is empty (`ListField`).
-/

namespace SourceOutline.Json

/-- A list reads if every item does. -/
theorem mapM_of_forall₂ {α β : Type} {read : α → Option β} {as : List α} {bs : List β}
    (h : List.Forall₂ (fun a b => read a = some b) as bs) : as.mapM read = some bs := by
  induction h with
  | nil => rfl
  | cons hfirst _ ih =>
    rw [List.mapM_cons, hfirst, ih]
    rfl

theorem listOf?_of_forall₂ {α : Type} {read : Json → Option α} {js : List Json} {as : List α}
    (h : List.Forall₂ (fun j a => read j = some a) js as) :
    listOf? read (.array js) = some as :=
  mapM_of_forall₂ h

/-- The record whose fields `given` hold what they are given, in one of its forms. -/
inductive RecordForm (fields : List Field) (given : List (String × Json)) : Json → Prop where
  /-- Other keys may stand between the declared ones, with whatever values. -/
  | object {members : List (String × Json)}
      (declared : (members.filter fun m => m.1 ∈ fields.map Field.name).Perm given) :
      RecordForm fields given (.object members)
  /-- Fields at the end may be left out where they are not given. -/
  | array {before after : List Field} (split : fields = before ++ after)
      (inOrder : before.map Field.name = given.map Prod.fst)
      (trailing : ∀ f ∈ after, f.trailing = true) :
      RecordForm fields given (.array (given.map Prod.snd))

/-! ## Objects -/

theorem valuesAt_eq_lookup {given : List (String × Json)} (h : (given.map Prod.fst).Nodup)
    (key : String) : valuesAt key given = (given.lookup key).toList := by
  induction given with
  | nil => rfl
  | cons m given ih =>
    obtain ⟨k, v⟩ := m
    rw [List.map_cons, List.nodup_cons] at h
    rw [valuesAt, List.lookup_cons]
    by_cases hkey : k = key
    · subst hkey
      have hrest : given.filter (fun m => decide (m.1 = k)) = [] := by
        rw [List.filter_eq_nil_iff]
        intro m hm hk
        exact h.1 (List.mem_map.2 ⟨m, hm, of_decide_eq_true hk⟩)
      simp [hrest]
    · have hne : (key == k) = false := beq_false_of_ne (Ne.symm hkey)
      simp only [hne, hkey, decide_false, Bool.false_eq_true, not_false_eq_true,
        List.filter_cons_of_neg]
      exact ih h.2

/-- Only the members of the key count. -/
theorem valuesAt_filter {declared : List String} {key : String} (hkey : key ∈ declared)
    (members : List (String × Json)) :
    valuesAt key (members.filter fun m => m.1 ∈ declared) = valuesAt key members := by
  unfold valuesAt
  rw [List.filter_filter]
  congr 1
  refine List.filter_congr fun m _ => ?_
  by_cases hm : m.1 = key
  · simp [hm, hkey]
  · simp [hm]

theorem member?_of_perm {declared : List String} {members given : List (String × Json)}
    (hperm : (members.filter fun m => m.1 ∈ declared).Perm given)
    (hgiven : (given.map Prod.fst).Nodup) {key : String} (hkey : key ∈ declared) :
    member? members key = some (given.lookup key) := by
  have hvalues : (valuesAt key members).Perm (given.lookup key).toList := by
    rw [← valuesAt_filter hkey, ← valuesAt_eq_lookup hgiven]
    exact (hperm.filter _).map _
  unfold member?
  cases hfound : given.lookup key with
  | none =>
    rw [hfound, Option.toList_none, List.perm_nil] at hvalues
    rw [hvalues]
  | some v =>
    rw [hfound, Option.toList_some, List.perm_singleton] at hvalues
    rw [hvalues]

/-! ## Arrays -/

theorem positional?_trailing {after : List Field} (h : ∀ f ∈ after, f.trailing = true) :
    positional? after [] = some (after.map fun _ => none) := by
  induction after with
  | nil => rfl
  | cons f after ih =>
    rw [List.forall_mem_cons] at h
    rw [positional?, if_pos h.1, ih h.2]
    rfl

theorem positional?_append (before after : List Field) {given : List (String × Json)}
    (hnames : before.map Field.name = given.map Prod.fst)
    (hafter : ∀ f ∈ after, f.trailing = true) :
    positional? (before ++ after) (given.map Prod.snd) =
      some (given.map (fun m => some m.2) ++ after.map fun _ => none) := by
  induction before generalizing given with
  | nil =>
    have hnone : given = [] := by simpa using hnames
    subst hnone
    exact positional?_trailing hafter
  | cons f before ih =>
    cases given with
    | nil => simp at hnames
    | cons m given =>
      rw [List.map_cons, List.map_cons, List.cons.injEq] at hnames
      rw [List.cons_append, List.map_cons, positional?, ih hnames.2]
      rfl

theorem lookup_of_mem {given : List (String × Json)} (h : (given.map Prod.fst).Nodup)
    {m : String × Json} (hm : m ∈ given) : given.lookup m.1 = some m.2 := by
  rw [← Option.mem_toList, ← valuesAt_eq_lookup h, valuesAt, List.mem_map]
  exact ⟨m, List.mem_filter.2 ⟨hm, decide_eq_true rfl⟩, rfl⟩

theorem lookup_of_not_mem {given : List (String × Json)} {key : String}
    (h : key ∉ given.map Prod.fst) : given.lookup key = none := by
  rw [List.lookup_eq_none_iff]
  intro m hm
  simpa using fun hkey : key = m.1 => h (hkey ▸ List.mem_map_of_mem hm)

/-- Reading the fields of a record gives what they hold, whatever the form. -/
theorem RecordForm.fields?_eq {fields : List Field} {given : List (String × Json)} {j : Json}
    (h : RecordForm fields given j) (hfields : (fields.map Field.name).Nodup)
    (hgiven : (given.map Prod.fst).Nodup) :
    j.fields? fields = some (fields.map fun f => given.lookup f.name) := by
  cases h with
  | object declared =>
    rw [fields?]
    refine mapM_of_forall₂ ?_
    rw [List.forall₂_map_right_iff, List.forall₂_same]
    intro f hf
    exact member?_of_perm declared hgiven (List.mem_map_of_mem hf)
  | @array before after split inOrder trailing =>
    subst split
    rw [List.map_append, List.nodup_append, inOrder] at hfields
    have hbefore : before.map (fun f => given.lookup f.name) = given.map fun m => some m.2 := by
      calc before.map (fun f => given.lookup f.name)
          = (before.map Field.name).map fun key => given.lookup key := by rw [List.map_map]; rfl
        _ = (given.map Prod.fst).map fun key => given.lookup key := by rw [inOrder]
        _ = given.map fun m => some m.2 := by
          rw [List.map_map]
          exact List.map_congr_left fun m hm => lookup_of_mem hgiven hm
    have hafter : after.map (fun f => given.lookup f.name) = after.map fun _ => none := by
      refine List.map_congr_left fun f hf => lookup_of_not_mem fun hkey => ?_
      exact hfields.2.2 f.name hkey f.name (List.mem_map_of_mem hf) rfl
    rw [fields?, positional?_append before after inOrder trailing, List.map_append, hbefore,
      hafter]

/-! ## Lists with a default -/

/-- What is given for a field that holds a list. -/
inductive ListField (key : String) (items : List Json) : List (String × Json) → Prop where
  | given : ListField key items [(key, .array items)]
  | leftOut (empty : items = []) : ListField key items []

theorem ListField.orElse?_eq {α : Type} {read : Json → Option α} {key : String}
    {items : List Json} {as : List α} {given : List (String × Json)}
    (h : ListField key items given) (hread : List.Forall₂ (fun j a => read j = some a) items as) :
    orElse? [] (listOf? read) (given.lookup key) = some as := by
  cases h with
  | given =>
    rw [List.lookup_cons_self]
    exact listOf?_of_forall₂ hread
  | leftOut empty =>
    subst empty
    cases hread
    rfl

theorem ListField.keys_sublist {key : String} {items : List Json}
    {given : List (String × Json)} (h : ListField key items given) :
    (given.map Prod.fst).Sublist [key] := by
  cases h with
  | given => exact List.Sublist.refl _
  | leftOut => exact List.nil_sublist _

theorem ListField.lookup_of_ne {key other : String} {items : List Json}
    {given : List (String × Json)} (h : ListField key items given) (hne : other ≠ key) :
    given.lookup other = none := by
  refine lookup_of_not_mem fun hother => hne ?_
  exact List.mem_singleton.1 (h.keys_sublist.subset hother)

end SourceOutline.Json
