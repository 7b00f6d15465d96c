import Mathlib.Algebra.Ring.Nat
import SourceOutline.Proofs.Grammar.Lookup

/-
  A kind stands for the concrete kinds that are within its reach along named subtypes, and for no
  other (`expand_ends_with_reachable`).

  Expanding a kind is a search. Kinds wait to be looked at, and each is looked at once: a supertype
  makes its subtypes wait, any other kind is found. `Search.Step` is one look, and the expansion is
  what has been found when no kind waits any more (`exists_run_expandFrom`). What is met along the
  way is within reach, and what a supertype lists that was looked at has been met (`Sound.run`), so
  that in the end nothing within reach is left out. Each look leaves less to do (`Step.work_lt`): a
  supertype makes its subtypes wait, but it never does so again.
-/

namespace SourceOutline.Supertypes

theorem Reaches.tail {s : Supertypes} {a b c : String} {subs : List String} (h : Reaches s a b)
    (hsubs : s.subtypes? b = some subs) (hc : c ∈ subs) : Reaches s a c := by
  induction h with
  | refl a => exact .step hsubs hc (.refl c)
  | step ha hb _ ih => exact .step ha hb (ih hsubs)

/-! ## The search, look by look -/

/-- A search under way: the kinds seen, the kinds that wait, the concrete kinds found. -/
structure Search where
  seen : NameSet
  pending : List String
  found : NameSet

namespace Search

def start (kind : String) : Search := ⟨∅, [kind], ∅⟩

/-- The next kind is looked at. -/
inductive Step (s : Supertypes) : Search → Search → Prop where
  | skip {kind : String} {pending : List String} {seen found : NameSet} :
      kind ∈ seen → Step s ⟨seen, kind :: pending, found⟩ ⟨seen, pending, found⟩
  | expand {kind : String} {subs pending : List String} {seen found : NameSet} :
      kind ∉ seen → s.subtypes? kind = some subs →
      Step s ⟨seen, kind :: pending, found⟩ ⟨seen.insert kind, subs.reverse ++ pending, found⟩
  | collect {kind : String} {pending : List String} {seen found : NameSet} :
      kind ∉ seen → s.subtypes? kind = none →
      Step s ⟨seen, kind :: pending, found⟩ ⟨seen.insert kind, pending, found.insert kind⟩

/-- So many looks lead from one search to the other. -/
inductive Run (s : Supertypes) : Nat → Search → Search → Prop where
  | done (w : Search) : Run s 0 w w
  | look {n : Nat} {w w' w'' : Search} : Step s w w' → Run s n w' w'' → Run s (n + 1) w w''

/-- The search comes to an end, and has then found the expansion. -/
theorem exists_run_expandFrom (s : Supertypes) (seen : NameSet) (pending : List String)
    (found : NameSet) :
    ∃ n seen', Run s n ⟨seen, pending, found⟩ ⟨seen', [], s.expandFrom seen pending found⟩ := by
  fun_induction expandFrom s seen pending found with
  | case1 seen found => exact ⟨0, seen, .done _⟩
  | case2 seen found kind pending hseen ih =>
    obtain ⟨n, seen', hrun⟩ := ih
    exact ⟨n + 1, seen', .look (.skip hseen) hrun⟩
  | case3 seen found kind pending hseen subs hsubs ih =>
    obtain ⟨n, seen', hrun⟩ := ih
    exact ⟨n + 1, seen', .look (.expand hseen hsubs) hrun⟩
  | case4 seen found kind pending hseen hsubs ih =>
    obtain ⟨n, seen', hrun⟩ := ih
    exact ⟨n + 1, seen', .look (.collect hseen hsubs) hrun⟩

/-! ## What is left to do -/

/-- The number of subtypes that the entries list outside the supertypes seen. -/
def listed (seen : NameSet) (entries : List (String × List String)) : Nat :=
  (entries.map fun e => if e.1 ∈ seen then 0 else e.2.length).sum

theorem listed_cons (seen : NameSet) (e : String × List String)
    (entries : List (String × List String)) :
    listed seen (e :: entries) =
      (if e.1 ∈ seen then 0 else e.2.length) + listed seen entries := by
  rw [listed, List.map_cons, List.sum_cons]
  rfl

theorem listed_insert_le (kind : String) (seen : NameSet)
    (entries : List (String × List String)) :
    listed (seen.insert kind) entries ≤ listed seen entries := by
  induction entries with
  | nil => exact Nat.le_refl _
  | cons e entries ih =>
    rw [listed_cons, listed_cons]
    by_cases he : e.1 ∈ seen
    · rw [if_pos he, if_pos (NameSet.mem_insert.2 (.inr he))]
      omega
    · rw [if_neg he]
      split <;> omega

/-- A supertype that is seen gives up all that it lists. -/
theorem length_add_listed_insert_le {kind : String} {seen : NameSet} (hseen : kind ∉ seen)
    {entries : List (String × List String)} {e : String × List String}
    (h : Keyed.find? Prod.fst kind entries = some e) :
    e.2.length + listed (seen.insert kind) entries ≤ listed seen entries := by
  induction entries with
  | nil => simp at h
  | cons x entries ih =>
    rw [Keyed.find?_cons] at h
    rw [listed_cons, listed_cons]
    split at h
    · next hx =>
      obtain rfl := Option.some.inj h
      have hrest := listed_insert_le kind seen entries
      rw [if_pos (NameSet.mem_insert.2 (.inl hx)), if_neg (hx ▸ hseen)]
      omega
    · next hx =>
      have hrest := ih h
      have hmem : x.1 ∈ seen.insert kind ↔ x.1 ∈ seen := by simp [hx]
      simp only [hmem]
      omega

/-- A bound on the looks that are still to come. -/
def work (s : Supertypes) (w : Search) : Nat := w.pending.length + listed w.seen s.entries

variable {s : Supertypes} {w w' : Search} {n : Nat} {kind a : String}

theorem Step.work_lt (h : Step s w w') : work s w' < work s w := by
  cases h with
  | skip hseen =>
    simp only [work, List.length_cons]
    omega
  | @expand kind subs pending seen found hseen hsubs =>
    obtain ⟨e, he, rfl⟩ := Option.map_eq_some_iff.1 hsubs
    have hgiven := length_add_listed_insert_le hseen he
    simp only [work, List.length_cons, List.length_append, List.length_reverse]
    omega
  | @collect kind pending seen found hseen hsubs =>
    have hrest := listed_insert_le kind seen s.entries
    simp only [work, List.length_cons]
    omega

theorem Run.add_work_le (h : Run s n w w') : n + work s w' ≤ work s w := by
  induction h with
  | done w => omega
  | look hstep hrun ih =>
    have hless := hstep.work_lt
    omega

theorem work_start (s : Supertypes) (kind : String) :
    work s (start kind) = 1 + (s.entries.map fun e => e.2.length).sum := by
  simp [work, start, listed]

/-! ## What has been met -/

/-- The search knows the kind. -/
def Met (w : Search) (a : String) : Prop := a ∈ w.seen ∨ a ∈ w.pending

theorem Step.met (h : Step s w w') (ha : w.Met a) : w'.Met a := by
  cases h with
  | skip hseen =>
    rcases ha with ha | ha
    · exact .inl ha
    · rcases List.mem_cons.1 ha with rfl | ha
      · exact .inl hseen
      · exact .inr ha
  | expand hseen hsubs =>
    rcases ha with ha | ha
    · exact .inl (NameSet.mem_insert.2 (.inr ha))
    · rcases List.mem_cons.1 ha with rfl | ha
      · exact .inl (NameSet.mem_insert.2 (.inl rfl))
      · exact .inr (List.mem_append_right _ ha)
  | collect hseen hsubs =>
    rcases ha with ha | ha
    · exact .inl (NameSet.mem_insert.2 (.inr ha))
    · rcases List.mem_cons.1 ha with rfl | ha
      · exact .inl (NameSet.mem_insert.2 (.inl rfl))
      · exact .inr ha

/-- What a search from `kind` can rely on: all that waits or has been found is within reach, all
    that seen supertypes list has been met, and the other kinds seen have been found. -/
structure Sound (s : Supertypes) (kind : String) (w : Search) : Prop where
  origin : w.Met kind
  listed : ∀ a ∈ w.seen, ∀ subs, s.subtypes? a = some subs → ∀ b ∈ subs, w.Met b
  collected : ∀ a ∈ w.seen, s.subtypes? a = none → a ∈ w.found
  pending : ∀ a ∈ w.pending, Reaches s kind a
  found : ∀ a ∈ w.found, s.subtypes? a = none ∧ Reaches s kind a

theorem sound_start (s : Supertypes) (kind : String) : Sound s kind (start kind) where
  origin := .inr List.mem_cons_self
  listed a ha := absurd ha (NameSet.not_mem_empty a)
  collected a ha := absurd ha (NameSet.not_mem_empty a)
  pending a ha := by
    rw [List.mem_singleton.1 ha]
    exact .refl kind
  found a ha := absurd ha (NameSet.not_mem_empty a)

theorem Sound.step (hw : Sound s kind w) (h : Step s w w') : Sound s kind w' := by
  have hmet : ∀ a ∈ w.seen, ∀ subs, s.subtypes? a = some subs → ∀ b ∈ subs, w'.Met b :=
    fun a ha subs hsubs b hb => h.met (hw.listed a ha subs hsubs b hb)
  have horigin : w'.Met kind := h.met hw.origin
  cases h with
  | skip hseen =>
    exact ⟨horigin, hmet, hw.collected, fun a ha => hw.pending a (List.mem_cons_of_mem _ ha),
      hw.found⟩
  | @expand k subs pending seen found hseen hsubs =>
    have hk : Reaches s kind k := hw.pending k List.mem_cons_self
    refine ⟨horigin, ?_, ?_, ?_, hw.found⟩
    · intro a ha subs' hsubs' b hb
      rcases NameSet.mem_insert.1 ha with rfl | ha
      · obtain rfl := Option.some.inj (hsubs.symm.trans hsubs')
        exact .inr (List.mem_append_left _ (List.mem_reverse.2 hb))
      · exact hmet a ha subs' hsubs' b hb
    · intro a ha hnone
      rcases NameSet.mem_insert.1 ha with rfl | ha
      · cases hsubs.symm.trans hnone
      · exact hw.collected a ha hnone
    · intro a ha
      rcases List.mem_append.1 ha with ha | ha
      · exact hk.tail hsubs (List.mem_reverse.1 ha)
      · exact hw.pending a (List.mem_cons_of_mem _ ha)
  | @collect k pending seen found hseen hsubs =>
    refine ⟨horigin, ?_, ?_, fun a ha => hw.pending a (List.mem_cons_of_mem _ ha), ?_⟩
    · intro a ha subs' hsubs' b hb
      rcases NameSet.mem_insert.1 ha with rfl | ha
      · cases hsubs.symm.trans hsubs'
      · exact hmet a ha subs' hsubs' b hb
    · intro a ha hnone
      rcases NameSet.mem_insert.1 ha with rfl | ha
      · exact NameSet.mem_insert.2 (.inl rfl)
      · exact NameSet.mem_insert.2 (.inr (hw.collected a ha hnone))
    · intro a ha
      rcases NameSet.mem_insert.1 ha with rfl | ha
      · exact ⟨hsubs, hw.pending _ List.mem_cons_self⟩
      · exact hw.found a ha

theorem Sound.run (hw : Sound s kind w) (h : Run s n w w') : Sound s kind w' := by
  induction h with
  | done w => exact hw
  | look hstep _ ih => exact ih (hw.step hstep)

/-- When no kind waits, all that is within reach of a kind that was met has been met. -/
theorem Sound.met_of_reaches (hw : Sound s kind w) (hdone : w.pending = []) {c : String}
    (h : Reaches s a c) (ha : w.Met a) : w.Met c := by
  induction h with
  | refl a => exact ha
  | @step a b c subs hsubs hb _ ih =>
    refine ih ?_
    rcases ha with ha | ha
    · exact hw.listed a ha subs hsubs b hb
    · simp [hdone] at ha

theorem Sound.mem_found_iff (hw : Sound s kind w) (hdone : w.pending = []) {c : String} :
    c ∈ w.found ↔ s.subtypes? c = none ∧ Reaches s kind c := by
  refine ⟨hw.found c, ?_⟩
  rintro ⟨hnone, hreach⟩
  rcases hw.met_of_reaches hdone hreach hw.origin with hc | hc
  · exact hw.collected c hc hnone
  · simp [hdone] at hc

end Search

variable {s : Supertypes} {kind c : String}

theorem contains_eq_false_iff : s.contains c = false ↔ s.subtypes? c = none := by
  rw [contains, Option.isSome_eq_false_iff, Option.isNone_iff_eq_none]

/-- The expansion holds the concrete kinds within reach. -/
theorem mem_expand_iff : c ∈ s.expand kind ↔ s.contains c = false ∧ Reaches s kind c := by
  obtain ⟨n, seen, hrun⟩ := Search.exists_run_expandFrom s ∅ [kind] ∅
  rw [contains_eq_false_iff]
  exact ((Search.sound_start s kind).run hrun).mem_found_iff rfl

/-! ## Chains of named subtypes -/

/-- The subtypes of a kind; of several node types that give it some, the last counts. -/
def SubtypesOf (types : List NodeType) (kind : String) (subs : List TypeRef) : Prop :=
  ∃ before t after, types = before ++ t :: after ∧ t.kind = kind ∧ t.subtypes = some subs ∧
    ∀ u ∈ after, u.kind = kind → u.subtypes = none

def IsSupertype (types : List NodeType) (kind : String) : Prop :=
  ∃ t ∈ types, t.kind = kind ∧ t.subtypes ≠ none

def IsNamedSubtype (types : List NodeType) (kind sub : String) : Prop :=
  ∃ subs, SubtypesOf types kind subs ∧ ⟨sub, true⟩ ∈ subs

/-- Some chain of supertypes leads from `a` to `c`, each a named subtype of the one before. -/
def Chain (types : List NodeType) (a c : String) : Prop :=
  ∃ (n : Nat) (k : Nat → String), k 0 = a ∧ k n = c ∧
    ∀ i < n, IsSupertype types (k i) ∧ IsNamedSubtype types (k i) (k (i + 1))

theorem subtypes?_put (entries : List (String × List String)) (e : String × List String)
    (kind : String) :
    subtypes? ⟨Keyed.put Prod.fst e entries⟩ kind =
      if e.1 = kind then some e.2 else subtypes? ⟨entries⟩ kind := by
  unfold subtypes?
  rw [Keyed.find?_put]
  split <;> rfl

theorem subtypes?_ofTypes (types : List NodeType) (kind : String) :
    (ofTypes types).subtypes? kind =
      Grammar.lastSome (fun t => if t.kind = kind then t.subtypes.map namedKinds else none)
        types := by
  unfold ofTypes
  induction types using List.reverseRecOn with
  | nil => rfl
  | append_singleton types t ih =>
    rw [List.foldl_concat, Grammar.lastSome_concat]
    cases hsubs : t.subtypes with
    | none =>
      rw [Option.map_none, ite_self, Option.none_or]
      exact ih
    | some subs =>
      rw [subtypes?_put, ih, Option.map_some]
      split <;> rfl

theorem subtypes?_ofTypes_eq_some_iff {types : List NodeType} {names : List String} :
    (ofTypes types).subtypes? kind = some names ↔
      ∃ subs, SubtypesOf types kind subs ∧ namedKinds subs = names := by
  rw [subtypes?_ofTypes, Grammar.lastSome_eq_some_iff]
  constructor
  · rintro ⟨before, t, after, rfl, ht, hafter⟩
    have hkind : t.kind = kind := by
      by_contra hne
      rw [if_neg hne] at ht
      cases ht
    rw [if_pos hkind] at ht
    obtain ⟨subs, hsubs, hnames⟩ := Option.map_eq_some_iff.1 ht
    refine ⟨subs, ⟨before, t, after, rfl, hkind, hsubs, ?_⟩, hnames⟩
    intro u hu huk
    have hnone := hafter u hu
    rw [if_pos huk] at hnone
    exact Option.map_eq_none_iff.1 hnone
  · rintro ⟨subs, ⟨before, t, after, rfl, hkind, hsubs, hafter⟩, hnames⟩
    refine ⟨before, t, after, rfl, ?_, ?_⟩
    · rw [if_pos hkind, hsubs, Option.map_some, hnames]
    · intro u hu
      split
      · next huk => rw [hafter u hu huk, Option.map_none]
      · rfl

theorem contains_ofTypes_eq_false_iff {types : List NodeType} :
    (ofTypes types).contains kind = false ↔ ¬ IsSupertype types kind := by
  rw [contains_eq_false_iff, subtypes?_ofTypes, Grammar.lastSome_eq_none_iff]
  constructor
  · rintro hnone ⟨t, ht, hkind, hsubs⟩
    have hmap := hnone t ht
    rw [if_pos hkind] at hmap
    exact hsubs (Option.map_eq_none_iff.1 hmap)
  · intro hno t ht
    split
    · next hkind =>
      refine Option.map_eq_none_iff.2 ?_
      by_contra hsubs
      exact hno ⟨t, ht, hkind, hsubs⟩
    · rfl

theorem mem_namedKinds {subs : List TypeRef} {sub : String} :
    sub ∈ namedKinds subs ↔ ⟨sub, true⟩ ∈ subs := by
  unfold namedKinds
  rw [List.mem_map]
  constructor
  · rintro ⟨⟨k, named⟩, ht, rfl⟩
    obtain ⟨ht, hnamed⟩ := List.mem_filter.1 ht
    obtain rfl : named = true := hnamed
    exact ht
  · intro h
    exact ⟨⟨sub, true⟩, List.mem_filter.2 ⟨h, rfl⟩, rfl⟩

theorem isNamedSubtype_iff {types : List NodeType} {sub : String} :
    IsNamedSubtype types kind sub ↔
      ∃ names, (ofTypes types).subtypes? kind = some names ∧ sub ∈ names := by
  unfold IsNamedSubtype
  simp only [subtypes?_ofTypes_eq_some_iff]
  constructor
  · rintro ⟨subs, hsubs, hsub⟩
    exact ⟨namedKinds subs, ⟨subs, hsubs, rfl⟩, mem_namedKinds.2 hsub⟩
  · rintro ⟨names, ⟨subs, hsubs, rfl⟩, hsub⟩
    exact ⟨subs, hsubs, mem_namedKinds.1 hsub⟩

theorem IsNamedSubtype.isSupertype {types : List NodeType} {sub : String}
    (h : IsNamedSubtype types kind sub) : IsSupertype types kind := by
  obtain ⟨subs, ⟨before, t, after, rfl, hkind, hsubs, -⟩, -⟩ := h
  exact ⟨t, by simp, hkind, by simp [hsubs]⟩

theorem Chain.cons {types : List NodeType} {a b : String} (h : IsNamedSubtype types a b)
    (hchain : Chain types b c) : Chain types a c := by
  obtain ⟨n, k, hfirst, hlast, hlinks⟩ := hchain
  refine ⟨n + 1, fun i => i.casesOn a k, rfl, hlast, ?_⟩
  intro i hi
  cases i with
  | zero =>
    have hlink : IsNamedSubtype types a (k 0) := by rwa [hfirst]
    exact ⟨hlink.isSupertype, hlink⟩
  | succ i => exact hlinks i (by omega)

theorem reaches_iff_chain {types : List NodeType} {a : String} :
    Reaches (ofTypes types) a c ↔ Chain types a c := by
  constructor
  · intro h
    induction h with
    | refl a => exact ⟨0, fun _ => a, rfl, rfl, fun i hi => absurd hi (Nat.not_lt_zero i)⟩
    | step hsubs hb _ ih => exact ih.cons (isNamedSubtype_iff.2 ⟨_, hsubs, hb⟩)
  · rintro ⟨n, k, hfirst, hlast, hlinks⟩
    induction n generalizing k a with
    | zero =>
      rw [← hfirst, hlast]
      exact .refl c
    | succ n ih =>
      obtain ⟨-, hlink⟩ := hlinks 0 (Nat.succ_pos n)
      obtain ⟨names, hnames, hmem⟩ := isNamedSubtype_iff.1 hlink
      rw [hfirst] at hnames
      refine .step hnames hmem (ih (fun i => k (i + 1)) rfl hlast ?_)
      intro i hi
      exact hlinks (i + 1) (by omega)

/-- The expansion of a kind comes to an end: no run of its search has more looks than there are
    subtypes listed and one, and one run leaves nothing waiting and has found the expansion. It
    holds the kinds that are no supertypes and that a chain of named subtypes leads to. -/
theorem expand_ends_with_reachable (types : List NodeType) (kind : String) :
    (∀ n w, Search.Run (ofTypes types) n (.start kind) w →
      n ≤ 1 + ((ofTypes types).entries.map fun e => e.2.length).sum) ∧
    (∃ n seen, Search.Run (ofTypes types) n (.start kind)
      ⟨seen, [], (ofTypes types).expand kind⟩) ∧
    ∀ c, c ∈ (ofTypes types).expand kind ↔ ¬ IsSupertype types c ∧ Chain types kind c := by
  refine ⟨?_, Search.exists_run_expandFrom _ ∅ [kind] ∅, ?_⟩
  · intro n w hrun
    have hle := hrun.add_work_le
    rw [Search.work_start] at hle
    omega
  · intro c
    rw [mem_expand_iff, contains_ofTypes_eq_false_iff, reaches_iff_chain]

end SourceOutline.Supertypes
