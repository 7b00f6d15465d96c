import SourceOutline.Grammar.NodeTypes
import SourceOutline.Keyed
import SourceOutline.NameSet

/-
  Supertypes: kinds that no node has, each standing for its subtypes, which may be supertypes
  again. `expand` gives the concrete kinds that a kind stands for: those reachable from it along
  subtypes. Supertypes may name each other in a circle.

  `Reaches` is the relation that `expand` computes.
-/

namespace SourceOutline

structure Supertypes where
  /-- The named subtypes of each supertype. -/
  entries : List (String × List String)

namespace Supertypes

/-- The supertypes among some node types; of two entries for one kind the last counts. -/
def ofTypes (types : List NodeType) : Supertypes where
  entries := types.foldl (fun acc t =>
    match t.subtypes with
    | some subtypes => Keyed.put Prod.fst (t.kind, namedKinds subtypes) acc
    | none => acc) []

def subtypes? (s : Supertypes) (kind : String) : Option (List String) :=
  (Keyed.find? Prod.fst kind s.entries).map Prod.snd

def contains (s : Supertypes) (kind : String) : Bool := (s.subtypes? kind).isSome

/-- `Reaches s a b`: some way along subtypes leads from `a` to `b`. -/
inductive Reaches (s : Supertypes) : String → String → Prop where
  | refl (a : String) : Reaches s a a
  | step {a b c : String} {subs : List String} :
      s.subtypes? a = some subs → b ∈ subs → Reaches s b c → Reaches s a c

/-- The supertypes that have not been seen yet. -/
def unseen (s : Supertypes) (seen : NameSet) : List String :=
  (s.entries.map Prod.fst).filter fun k => k ∉ seen

theorem mem_keys_of_subtypes? {s : Supertypes} {kind : String} {subs : List String}
    (h : s.subtypes? kind = some subs) : kind ∈ s.entries.map Prod.fst := by
  unfold subtypes? at h
  obtain ⟨e, he, _⟩ := Option.map_eq_some_iff.1 h
  exact List.mem_map.2 ⟨e, Keyed.mem_of_find? he, Keyed.key_of_find? he⟩

theorem length_filter_lt {α : Type} {l : List α} {p q : α → Bool}
    (hpq : ∀ x, q x = true → p x = true)
    {a : α} (ha : a ∈ l) (hp : p a = true) (hq : q a = false) :
    (l.filter q).length < (l.filter p).length := by
  induction l with
  | nil => simp at ha
  | cons x l ih =>
    have hle : (l.filter q).length ≤ (l.filter p).length := by
      rw [← List.countP_eq_length_filter, ← List.countP_eq_length_filter]
      exact List.countP_mono_left fun y _ => hpq y
    rcases List.mem_cons.1 ha with rfl | ha
    · simp only [List.filter_cons, hp, hq, if_true]
      simp
      omega
    · have := ih ha
      cases hqx : q x with
      | true => simp [hqx, hpq x hqx, this]
      | false =>
        cases hpx : p x with
        | true => simp [hqx, hpx]; omega
        | false => simp [hqx, hpx, this]

theorem unseen_insert_lt {s : Supertypes} {kind : String} {subs : List String} {seen : NameSet}
    (h : s.subtypes? kind = some subs) (hseen : kind ∉ seen) :
    (s.unseen (seen.insert kind)).length < (s.unseen seen).length :=
  length_filter_lt (fun x hx => by simp at hx ⊢; exact hx.2) (mem_keys_of_subtypes? h)
    (by simpa using hseen) (by simp)

theorem unseen_insert_of_concrete {s : Supertypes} {kind : String}
    (h : s.subtypes? kind = none) (seen : NameSet) :
    s.unseen (seen.insert kind) = s.unseen seen := by
  refine List.filter_congr fun k hk => ?_
  have hne : k ≠ kind := by
    rintro rfl
    exact Keyed.find?_eq_none_iff.1 (Option.map_eq_none_iff.1 h) hk
  simp [hne]

/-- Looks at the kinds that wait, the last to come first, each kind once: the subtypes of a
    supertype come to wait, a concrete kind is collected. -/
def expandFrom (s : Supertypes) (seen : NameSet) (pending : List String) (found : NameSet) :
    NameSet :=
  match pending with
  | [] => found
  | kind :: pending =>
    if kind ∈ seen then s.expandFrom seen pending found
    else
      match _h : s.subtypes? kind with
      | some subs => s.expandFrom (seen.insert kind) (subs.reverse ++ pending) found
      | none => s.expandFrom (seen.insert kind) pending (found.insert kind)
termination_by ((s.unseen seen).length, pending.length)
decreasing_by
  · exact Prod.Lex.right _ (by simp)
  · exact Prod.Lex.left _ _ (unseen_insert_lt ‹_› ‹_›)
  · rw [unseen_insert_of_concrete ‹_›]
    exact Prod.Lex.right _ (by simp)

/-- The concrete kinds that a kind stands for. -/
def expand (s : Supertypes) (kind : String) : NameSet := s.expandFrom ∅ [kind] ∅

end Supertypes

end SourceOutline
