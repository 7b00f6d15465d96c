import Mathlib.Data.List.Find
import Mathlib.Data.List.Forall2
import SourceOutline.Grammar.Registry

/-
  A registry that is narrowed to some names is the registry of the grammars so named.

  Names are compared up to ASCII case, letter by letter (`sameName_iff`), and this is an
  equivalence. So the grammars of one name are kept or dropped together, and a look-up by name finds
  the same grammar as before or nothing. A look-up by path has no such law: where the first grammar
  for an extension is dropped, a later one takes its place. Narrowing twice is one filter by both
  lists, whichever comes first.
-/

namespace SourceOutline

/-! ## Names up to ASCII case -/

/-- `d` is the small letter of the ASCII capital `c`. -/
def IsSmallOf (d c : Char) : Prop := 'A' ≤ c ∧ c ≤ 'Z' ∧ d.toNat = c.toNat + 32

/-- The same character, or the two cases of one ASCII letter. -/
def SameLetter (c d : Char) : Prop := c = d ∨ IsSmallOf c d ∨ IsSmallOf d c

/-- The same text up to ASCII case. -/
def SameUpToCase (a b : String) : Prop := List.Forall₂ SameLetter a.toList b.toList

theorem isSmallOf_iff (d c : Char) :
    IsSmallOf d c ↔ (65 ≤ c.toNat ∧ c.toNat ≤ 90) ∧ d.toNat = c.toNat + 32 := by
  simp [IsSmallOf, Char.le_def, UInt32.le_iff_toNat_le, and_assoc]

theorem toNat_toLower (c : Char) :
    c.toLower.toNat = if 65 ≤ c.toNat ∧ c.toNat ≤ 90 then c.toNat + 32 else c.toNat := by
  unfold Char.toLower
  split
  · next h =>
    have hcapital : 65 ≤ c.toNat ∧ c.toNat ≤ 90 := by simpa [UInt32.le_iff_toNat_le] using h
    rw [if_pos hcapital, ← Char.toNat_val, UInt32.toNat_add]
    have hstep : ('a'.val - 'A'.val).toNat = 32 := by decide
    rw [hstep, Char.toNat_val]
    omega
  · next h =>
    have hother : ¬ (65 ≤ c.toNat ∧ c.toNat ≤ 90) := by simpa [UInt32.le_iff_toNat_le] using h
    rw [if_neg hother]

theorem toLower_eq_iff (c d : Char) : c.toLower = d.toLower ↔ SameLetter c d := by
  unfold SameLetter
  rw [isSmallOf_iff, isSmallOf_iff, ← Char.toNat_inj, ← Char.toNat_inj, toNat_toLower,
    toNat_toLower]
  split <;> split <;> omega

theorem sameName_iff (a b : String) : sameName a b = true ↔ SameUpToCase a b := by
  unfold sameName SameUpToCase
  rw [decide_eq_true_iff, ← List.forall₂_eq_eq_eq, List.forall₂_map_left_iff,
    List.forall₂_map_right_iff]
  simp only [toLower_eq_iff]

theorem sameUpToCase_iff (a b : String) :
    SameUpToCase a b ↔ a.toList.map Char.toLower = b.toList.map Char.toLower := by
  rw [← sameName_iff, sameName, decide_eq_true_iff]

theorem SameUpToCase.symm {a b : String} (h : SameUpToCase a b) : SameUpToCase b a := by
  rw [sameUpToCase_iff] at h ⊢
  exact h.symm

theorem SameUpToCase.trans {a b c : String} (hab : SameUpToCase a b) (hbc : SameUpToCase b c) :
    SameUpToCase a c := by
  rw [sameUpToCase_iff] at hab hbc ⊢
  exact hab.trans hbc

instance (a b : String) : Decidable (SameUpToCase a b) := decidable_of_iff _ (sameName_iff a b)

/-- The list has the name, in some spelling. -/
def HasSpelling (names : List String) (name : String) : Prop := ∃ a ∈ names, SameUpToCase a name

instance (names : List String) (name : String) : Decidable (HasSpelling names name) :=
  inferInstanceAs (Decidable (∃ a ∈ names, _))

/-- A list that has a name has every spelling of it. -/
theorem hasSpelling_congr {names : List String} {a b : String} (h : SameUpToCase a b) :
    HasSpelling names a ↔ HasSpelling names b := by
  constructor
  · rintro ⟨x, hx, hxa⟩
    exact ⟨x, hx, hxa.trans h⟩
  · rintro ⟨x, hx, hxb⟩
    exact ⟨x, hx, hxb.trans h.symm⟩

/-! ## Narrowing a registry -/

namespace Registry

/-- The registry after some grammars have been registered, in this order. -/
def ofGrammars (gs : List Grammar) : Registry := gs.foldl register ∅

theorem grammars_foldl_register (gs : List Grammar) (r : Registry) :
    (gs.foldl register r).grammars = r.grammars ++ gs := by
  induction gs generalizing r with
  | nil => simp
  | cons g gs ih => rw [List.foldl_cons, ih, register, List.append_assoc, List.singleton_append]

theorem grammars_ofGrammars (gs : List Grammar) : (ofGrammars gs).grammars = gs :=
  grammars_foldl_register gs ∅

theorem grammars_retain (r : Registry) (names : List String) :
    (r.retain names).grammars = r.grammars.filter fun g => decide (HasSpelling names g.name) := by
  unfold retain
  refine List.filter_congr fun g _ => ?_
  rw [Bool.eq_iff_iff, List.any_eq_true, decide_eq_true_iff]
  constructor
  · rintro ⟨a, ha, hname⟩
    exact ⟨a, ha, ((sameName_iff g.name a).1 hname).symm⟩
  · rintro ⟨a, ha, hname⟩
    exact ⟨a, ha, (sameName_iff g.name a).2 hname.symm⟩

theorem ext {r s : Registry} (h : r.grammars = s.grammars) : r = s := by
  obtain ⟨gs⟩ := r
  exact congrArg Registry.mk h

/-- Of the grammars in their order, `g` is the first that handles the path and is named. -/
def FirstFor (gs : List Grammar) (names : List String) (path : String) (g : Grammar) : Prop :=
  (g.canHandle path ∧ HasSpelling names g.name) ∧
    ∃ before after, gs = before ++ g :: after ∧
      ∀ other ∈ before, ¬ (other.canHandle path ∧ HasSpelling names other.name)

/-- The registry `narrow` is what is left of the grammars `gs`, registered in this order, when only
    those in `names` are kept. -/
structure Narrows (gs : List Grammar) (names : List String) (narrow : Registry) : Prop where
  /-- The named grammars in the order of registration, as often as they were registered. -/
  kept : narrow.grammars = gs.filter fun g => decide (HasSpelling names g.name)
  named : ∀ name, HasSpelling names name →
    narrow.findByName? name = (ofGrammars gs).findByName? name
  unnamed : ∀ name, ¬ HasSpelling names name → narrow.findByName? name = none
  handled : ∀ path g, narrow.findForPath? path = some g ↔ FirstFor gs names path g
  unhandled : ∀ path, narrow.findForPath? path = none ↔
    ∀ g ∈ gs, HasSpelling names g.name → g.canHandle path = false

theorem findByName?_retain (r : Registry) (names : List String) (name : String) :
    (r.retain names).findByName? name =
      if HasSpelling names name then r.findByName? name else none := by
  unfold findByName?
  rw [grammars_retain, List.find?_filter]
  split
  · next hname =>
    -- whatever bears the name asked for is one of those that are kept
    refine List.find?_congr fun g _ => ?_
    rw [Bool.eq_iff_iff, decide_eq_true_iff, decide_eq_true_iff]
    refine and_iff_right_of_imp fun hg => ?_
    exact (hasSpelling_congr ((sameName_iff g.name name).1 hg)).2 hname
  · next hname =>
    rw [List.find?_eq_none]
    intro g _ hg
    rw [decide_eq_true_iff, decide_eq_true_iff] at hg
    exact hname ((hasSpelling_congr ((sameName_iff g.name name).1 hg.2)).1 hg.1)

theorem findForPath?_retain (r : Registry) (names : List String) (path : String) :
    (r.retain names).findForPath? path =
      r.grammars.find? fun g => decide (g.canHandle path ∧ HasSpelling names g.name) := by
  unfold findForPath?
  rw [grammars_retain, List.find?_filter]
  refine List.find?_congr fun g _ => ?_
  rw [decide_eq_decide, decide_eq_true_iff]
  exact and_comm

theorem narrows_retain (gs : List Grammar) (names : List String) :
    Narrows gs names ((ofGrammars gs).retain names) where
  kept := by rw [grammars_retain, grammars_ofGrammars]
  named name hname := by rw [findByName?_retain, if_pos hname]
  unnamed name hname := by rw [findByName?_retain, if_neg hname]
  handled path g := by
    rw [findForPath?_retain, grammars_ofGrammars, List.find?_eq_some_iff_append,
      decide_eq_true_iff]
    simp only [Bool.not_eq_true', decide_eq_false_iff_not]
    rfl
  unhandled path := by
    rw [findForPath?_retain, grammars_ofGrammars, List.find?_eq_none]
    refine forall₂_congr fun g _ => ?_
    rw [decide_eq_true_iff, not_and', Bool.not_eq_true]

/-- Narrowing by two lists keeps what both of them name. -/
theorem grammars_retain_retain (r : Registry) (first second : List String) :
    ((r.retain first).retain second).grammars =
      r.grammars.filter fun g => decide (HasSpelling first g.name ∧ HasSpelling second g.name) := by
  rw [grammars_retain, grammars_retain, List.filter_filter]
  refine List.filter_congr fun g _ => ?_
  rw [Bool.and_comm, Bool.decide_and]

theorem retain_comm (r : Registry) (first second : List String) :
    (r.retain first).retain second = (r.retain second).retain first := by
  apply ext
  simp only [grammars_retain_retain, and_comm]

theorem retain_retain_self (r : Registry) (names : List String) :
    (r.retain names).retain names = r.retain names := by
  apply ext
  rw [grammars_retain_retain, grammars_retain]
  simp only [and_self]

/-- Narrowing is a faithful filter: after any registrations it leaves the named grammars in their
    order, with the look-ups that this means. Two lists may be applied in either order, and the
    first one again after them. -/
theorem retain_narrows (gs : List Grammar) (first second : List String) :
    Narrows gs first ((ofGrammars gs).retain first) ∧
      ((ofGrammars gs).retain first).retain second =
        ((ofGrammars gs).retain second).retain first ∧
      (((ofGrammars gs).retain first).retain second).retain first =
        ((ofGrammars gs).retain first).retain second := by
  refine ⟨narrows_retain gs first, retain_comm _ first second, ?_⟩
  rw [retain_comm _ second first, retain_retain_self]

/-- The second of two grammars for an extension is found once the first is left out. -/
example :
    let narrow := (ofGrammars [.ofTypes "One" ["x"] [], .ofTypes "Two" ["x"] []]).retain ["tWO"]
    (narrow.findForPath? "a.x").map Grammar.name = some "Two" ∧
      (narrow.findByName? "One").isNone := by
  decide

end Registry

end SourceOutline
