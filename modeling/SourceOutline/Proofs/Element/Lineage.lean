import Mathlib.Data.List.Chain
import SourceOutline.Element.Session
import SourceOutline.Node.Graph
import SourceOutline.Outline.Descent

/-
  Handles and their parents over whole runs of queries.

  A query does one of three things to a session: nothing, it ends the element of one handle, or it
  puts wrapped elements behind those that are there, each with the handle that was asked as its
  parent (`ask_cases`). So the element and the parent of a handle never change, and a handle is
  live until it is dropped (`exists_entry_after`); all elements have the entity of their rule and
  parents that came before them (`Sound`). From this follows what a run shows (`WellLinked`), whatever the
  nodes are like: parents are lost only by dropping them, and following them comes to an end.
-/

namespace SourceOutline

/-- The elements that come with an answer, each with its handle. -/
def Answer.given {ν : Type} : Answer ν → List (Nat × Element ν)
  | .value _ => []
  | .values _ => []
  | .element e => e.toList
  | .elements es => es
  | .order _ => []
  | .parent _ => []
  | .dropped => []

/-- The element has the entity of its rule, and was reached from the handle `h`. -/
structure SessionEntry.ReachedFrom {ν : Type} [SyntaxNode ν] (m : Metamodel) (h : Nat)
    (entry : SessionEntry ν) : Prop where
  wrapped : Element.wrap m entry.element.node = .ok entry.element
  parent : entry.parent = some h
  live : entry.live = true

theorem SessionEntry.wrapped_of_wrap {ν : Type} [SyntaxNode ν] {m : Metamodel}
    {parent : Option Nat} {n : ν} {entry : SessionEntry ν}
    (h : SessionEntry.wrap m parent n = .ok entry) :
    entry = ⟨entry.element, parent, true⟩ ∧
      Element.wrap m entry.element.node = .ok entry.element := by
  obtain ⟨e, he, h⟩ := exists_of_bind_eq_ok h
  cases h
  obtain ⟨rfl, -⟩ := Element.wrap_eq_ok_iff.1 he
  exact ⟨rfl, he⟩

theorem SessionEntry.reachedFrom_of_wrap {ν : Type} [SyntaxNode ν] {m : Metamodel} {h : Nat}
    {entry : SessionEntry ν} {P : ν → Prop}
    (hw : ∃ n, P n ∧ SessionEntry.wrap m (some h) n = .ok entry) : entry.ReachedFrom m h := by
  obtain ⟨n, -, hw⟩ := hw
  obtain ⟨heq, hwrapped⟩ := wrapped_of_wrap hw
  exact ⟨hwrapped, by rw [heq], by rw [heq]⟩

namespace Session

variable {ν : Type} {s : Session ν}

/-! ## New handles and dropped ones -/

theorem push_nil (s : Session ν) : s.push [] = (s, []) := by
  simp [push]

theorem entry_push_of_lt {c : Nat} (h : c < s.entries.size) (new : List (SessionEntry ν)) :
    (s.push new).1.entries[c]? = s.entries[c]? :=
  Array.getElem?_append_left h

theorem entry_push_size_add (s : Session ν) (new : List (SessionEntry ν)) (i : Nat) :
    (s.push new).1.entries[s.entries.size + i]? = new[i]? := by
  unfold push
  dsimp only
  rw [Array.getElem?_append_right (Nat.le_add_right ..), Nat.add_sub_cancel_left,
    List.getElem?_toArray]

theorem mem_push {c : Nat} {e : Element ν} {new : List (SessionEntry ν)} :
    (c, e) ∈ (s.push new).2 ↔
      ∃ i entry, c = s.entries.size + i ∧ new[i]? = some entry ∧ entry.element = e := by
  simp only [push, List.mem_mapIdx, Prod.mk.injEq, List.getElem?_eq_some_iff]
  constructor
  · rintro ⟨i, hi, rfl, rfl⟩
    exact ⟨i, new[i], rfl, ⟨hi, rfl⟩, rfl⟩
  · rintro ⟨i, entry, rfl, ⟨hi, rfl⟩, rfl⟩
    exact ⟨i, hi, rfl, rfl⟩

theorem map_fst_push (s : Session ν) (new : List (SessionEntry ν)) :
    (s.push new).2.map Prod.fst = List.range' s.entries.size new.length := by
  refine List.ext_getElem (by simp [push]) ?_
  intro i h₁ h₂
  simp [push]

theorem entry_drop (s : Session ν) (h c : Nat) :
    (s.drop h).entries[c]? =
      if h = c then s.entries[c]?.map fun e => { e with live := false } else s.entries[c]? :=
  Array.getElem?_modify

theorem live?_eq_some_iff {c : Nat} {entry : SessionEntry ν} :
    s.live? c = some entry ↔ s.entries[c]? = some entry ∧ entry.live = true :=
  Option.filter_eq_some_iff

theorem lt_size_of_entry {c : Nat} {entry : SessionEntry ν} (h : s.entries[c]? = some entry) :
    c < s.entries.size :=
  (Array.getElem?_eq_some_iff.1 h).1

theorem given_give? (s : Session ν) (child : Option (SessionEntry ν)) :
    ((s.give? child).1, (s.give? child).2.given) = s.push child.toList := by
  cases child with
  | none => simp [give?, push, Answer.given]
  | some c => simp [give?, push, Answer.given]

/-! ## One query -/

variable [SyntaxNode ν] {m : Metamodel}

/-- A query that succeeds drops its handle, or gives wrapped elements, possibly none, as children
    of its handle. -/
theorem askEntry_cases {h : Nat} {entry : SessionEntry ν} {q : Query} {s' : Session ν}
    {a : Answer ν} (hask : s.askEntry h entry q = .ok (s', a)) :
    (q = .drop ∧ s' = s.drop h ∧ a.given = []) ∨
      q ≠ .drop ∧ ∃ new, (s', a.given) = s.push new ∧
        ∀ entry ∈ new, entry.ReachedFrom s.metamodel h := by
  -- answers without elements give an empty list of them
  have hnone : ∀ {q : Query} {a : Answer ν}, q ≠ .drop → a.given = [] →
      (q = .drop ∧ s = s.drop h ∧ a.given = []) ∨
        q ≠ .drop ∧ ∃ new, (s, a.given) = s.push new ∧
          ∀ entry ∈ new, entry.ReachedFrom s.metamodel h := by
    intro q a hq ha
    exact .inr ⟨hq, [], by rw [push_nil, ha], by simp⟩
  cases q with
  | propertyNamed name =>
    obtain ⟨v, -, hask⟩ := exists_of_bind_eq_ok hask
    cases hask
    exact hnone (by simp) rfl
  | singleProperty p =>
    obtain ⟨v, -, hask⟩ := exists_of_bind_eq_ok hask
    cases hask
    exact hnone (by simp) rfl
  | multipleProperty p =>
    obtain ⟨vs, -, hask⟩ := exists_of_bind_eq_ok hask
    cases hask
    exact hnone (by simp) rfl
  | relationNamed name =>
    obtain ⟨found, hfound, hask⟩ := exists_of_bind_eq_ok hask
    obtain ⟨r, -, hfound⟩ := exists_of_bind_eq_ok hfound
    cases hask
    exact .inr ⟨by simp, found.toList, given_give? s found, fun entry hentry =>
      SessionEntry.reachedFrom_of_wrap (Element.exists_of_singleRelationBy hfound entry hentry)⟩
  | relationsNamed name =>
    obtain ⟨found, hfound, hask⟩ := exists_of_bind_eq_ok hask
    obtain ⟨r, -, hfound⟩ := exists_of_bind_eq_ok hfound
    cases hask
    exact .inr ⟨by simp, found, rfl, fun entry hentry =>
      SessionEntry.reachedFrom_of_wrap (Element.exists_of_multipleRelationBy hfound entry hentry)⟩
  | singleRelation r =>
    obtain ⟨found, hfound, hask⟩ := exists_of_bind_eq_ok hask
    cases hask
    exact .inr ⟨by simp, found.toList, given_give? s found, fun entry hentry =>
      SessionEntry.reachedFrom_of_wrap (Element.exists_of_singleRelationBy hfound entry hentry)⟩
  | multipleRelation r =>
    obtain ⟨found, hfound, hask⟩ := exists_of_bind_eq_ok hask
    cases hask
    exact .inr ⟨by simp, found, rfl, fun entry hentry =>
      SessionEntry.reachedFrom_of_wrap (Element.exists_of_multipleRelationBy hfound entry hentry)⟩
  | valuesOrder =>
    obtain ⟨refs, -, hask⟩ := exists_of_bind_eq_ok hask
    cases hask
    exact hnone (by simp) rfl
  | valueAt ref =>
    obtain ⟨found, hfound, hask⟩ := exists_of_bind_eq_ok hask
    match found, hfound, hask with
    | none, _, hask =>
      cases hask
      exact hnone (by simp) rfl
    | some (.value v), _, hask =>
      cases hask
      exact hnone (by simp) rfl
    | some (.element child), hfound, hask =>
      cases hask
      refine .inr ⟨by simp, [child], given_give? s (some child), fun entry hentry => ?_⟩
      obtain rfl := List.mem_singleton.1 hentry
      exact SessionEntry.reachedFrom_of_wrap (Element.exists_of_valueAtBy hfound)
  | parent =>
    cases hask
    exact hnone (by simp) rfl
  | drop =>
    cases hask
    exact .inl ⟨rfl, rfl, rfl⟩

/-- What asking can do: it fails and leaves the session as it is, or it drops a handle that is live,
    or a live handle gets wrapped children. -/
theorem ask_cases (s : Session ν) (h : Nat) (q : Query) :
    ((s.ask h q).1 = s ∧ (∀ a, (s.ask h q).2 ≠ some (.ok a)) ∧
        (q = .drop → s.live? h = none)) ∨
      (q = .drop ∧ s.ask h q = (s.drop h, some (.ok .dropped))) ∨
      q ≠ .drop ∧ (∃ entry, s.live? h = some entry) ∧ ∃ new a,
        s.ask h q = ((s.push new).1, some (.ok a)) ∧ a.given = (s.push new).2 ∧
          ∀ entry ∈ new, entry.ReachedFrom s.metamodel h := by
  unfold ask
  cases hlive : s.live? h with
  | none => exact .inl ⟨rfl, by simp, fun _ => rfl⟩
  | some entry =>
    dsimp only
    cases hask : s.askEntry h entry q with
    | error f =>
      refine .inl ⟨rfl, by simp, ?_⟩
      rintro rfl
      cases hask
    | ok result =>
      obtain ⟨s', a⟩ := result
      by_cases hq : q = .drop
      · subst hq
        cases hask
        exact .inr (.inl ⟨rfl, rfl⟩)
      · rcases askEntry_cases hask with ⟨hdrop, -⟩ | ⟨-, new, hpush, hnew⟩
        · exact absurd hdrop hq
        · obtain ⟨hs', hgiven⟩ := Prod.mk.inj hpush
          exact .inr (.inr ⟨hq, ⟨entry, rfl⟩, new, a, by rw [hs']; rfl, hgiven, hnew⟩)

/-- A query changes neither the element nor the parent of a handle, and ends it only by dropping
    it. -/
theorem exists_entry_ask {c : Nat} {entry : SessionEntry ν} (hc : s.entries[c]? = some entry)
    (h : Nat) (q : Query) :
    ∃ live, (s.ask h q).1.entries[c]? = some { entry with live := live } ∧
      (live = true ↔ entry.live = true ∧ (h, q) ≠ (c, .drop)) := by
  rcases ask_cases s h q with ⟨hs, -, hdead⟩ | ⟨rfl, hask⟩ | ⟨hq, -, new, a, hask, -⟩
  · refine ⟨entry.live, by rw [hs, hc], ?_⟩
    rw [iff_self_and]
    rintro hlive heq
    obtain ⟨rfl, rfl⟩ := Prod.mk.inj heq
    have hnone := hdead rfl
    rw [live?_eq_some_iff.2 ⟨hc, hlive⟩] at hnone
    cases hnone
  · rw [hask]
    by_cases hhc : h = c
    · refine ⟨false, ?_, by simp [hhc]⟩
      rw [entry_drop, if_pos hhc, hc]
      rfl
    · refine ⟨entry.live, ?_, by simp [hhc]⟩
      rw [entry_drop, if_neg hhc, hc]
  · rw [hask]
    refine ⟨entry.live, ?_, by simp [hq]⟩
    rw [entry_push_of_lt (lt_size_of_entry hc), hc]

/-- An element that a query gives gets a new handle, as a child of the handle that was asked. -/
theorem entry_of_given {h : Nat} {q : Query} {a : Answer ν}
    (hask : (s.ask h q).2 = some (.ok a)) {c : Nat} {e : Element ν} (he : (c, e) ∈ a.given) :
    (s.ask h q).1.entries[c]? = some ⟨e, some h, true⟩ := by
  rcases ask_cases s h q with
    ⟨-, hfails, -⟩ | ⟨-, hdrop⟩ | ⟨-, -, new, a', hpush, hgiven, hnew⟩
  · exact absurd hask (hfails a)
  · rw [hdrop] at hask
    cases hask
    simp [Answer.given] at he
  · rw [hpush] at hask ⊢
    cases hask
    rw [hgiven] at he
    obtain ⟨i, ⟨e, parent, live⟩, rfl, hi, rfl⟩ := mem_push.1 he
    obtain ⟨-, rfl, rfl⟩ := hnew _ (List.mem_of_getElem? hi)
    rw [entry_push_size_add, hi]

/-! ## Runs -/

/-- The session after some queries, each of them asked of a handle. -/
def after (s : Session ν) (steps : List (Nat × Query)) : Session ν :=
  steps.foldl (fun s step => (s.ask step.1 step.2).1) s

theorem after_append (s : Session ν) (steps later : List (Nat × Query)) :
    s.after (steps ++ later) = (s.after steps).after later := by
  unfold after
  rw [List.foldl_append]

/-- In a run a handle keeps its element and its parent, and is live until it is dropped. -/
theorem exists_entry_after {c : Nat} {entry : SessionEntry ν} (hc : s.entries[c]? = some entry)
    (steps : List (Nat × Query)) :
    ∃ live, (s.after steps).entries[c]? = some { entry with live := live } ∧
      (live = true ↔ entry.live = true ∧ (c, .drop) ∉ steps) := by
  induction steps generalizing s entry with
  | nil => exact ⟨entry.live, hc, by simp⟩
  | cons step steps ih =>
    obtain ⟨live, hstep, hlive⟩ := exists_entry_ask hc step.1 step.2
    obtain ⟨live', hrun, hlive'⟩ := ih hstep
    refine ⟨live', hrun, ?_⟩
    rw [hlive', hlive, List.mem_cons, not_or, and_assoc]
    exact and_congr_right fun _ => and_congr_left fun _ => ne_comm

/-- The element of the handle `c` has the entity of its rule, and its parent came before it. -/
structure SoundEntry (m : Metamodel) (c : Nat) (entry : SessionEntry ν) : Prop where
  wrapped : Element.wrap m entry.element.node = .ok entry.element
  older : ∀ p ∈ entry.parent, p < c

structure Sound (m : Metamodel) (s : Session ν) : Prop where
  metamodel : s.metamodel = m
  entry : ∀ {c : Nat} {entry : SessionEntry ν}, s.entries[c]? = some entry → SoundEntry m c entry

theorem sound_start {root : ν} (h : start m root = .ok s) : Sound m s := by
  obtain ⟨entry, he, h⟩ := exists_of_bind_eq_ok h
  cases h
  obtain ⟨heq, hwrapped⟩ := SessionEntry.wrapped_of_wrap he
  refine ⟨rfl, ?_⟩
  intro c entry' hc
  cases c with
  | zero =>
    obtain rfl := Option.some.inj hc
    exact ⟨hwrapped, by rw [heq]; simp⟩
  | succ c => simp at hc

theorem Sound.drop (hs : Sound m s) (h : Nat) : Sound m (s.drop h) := by
  refine ⟨hs.metamodel, ?_⟩
  intro c entry hc
  rw [entry_drop] at hc
  split at hc
  · obtain ⟨old, hold, rfl⟩ := Option.map_eq_some_iff.1 hc
    exact ⟨(hs.entry hold).wrapped, (hs.entry hold).older⟩
  · exact hs.entry hc

theorem Sound.push (hs : Sound m s) {h : Nat} (hlt : h < s.entries.size)
    {new : List (SessionEntry ν)} (hnew : ∀ entry ∈ new, entry.ReachedFrom m h) :
    Sound m (s.push new).1 := by
  refine ⟨hs.metamodel, ?_⟩
  intro c entry hc
  rcases Nat.lt_or_ge c s.entries.size with hold | hge
  · rw [entry_push_of_lt hold] at hc
    exact hs.entry hc
  · obtain ⟨i, rfl⟩ := Nat.exists_eq_add_of_le hge
    rw [entry_push_size_add] at hc
    have hreached := hnew entry (List.mem_of_getElem? hc)
    refine ⟨hreached.wrapped, fun p hp => ?_⟩
    obtain rfl := Option.some.inj (hreached.parent.symm.trans hp)
    exact Nat.lt_of_lt_of_le hlt hge

theorem Sound.ask (hs : Sound m s) (h : Nat) (q : Query) : Sound m (s.ask h q).1 := by
  rcases ask_cases s h q with
    ⟨hsame, -⟩ | ⟨-, hdrop⟩ | ⟨-, ⟨entry, hlive⟩, new, a, hpush, -, hnew⟩
  · rw [hsame]
    exact hs
  · rw [hdrop]
    exact hs.drop h
  · rw [hpush]
    rw [hs.metamodel] at hnew
    exact hs.push (lt_size_of_entry (live?_eq_some_iff.1 hlive).1) hnew

theorem Sound.after (hs : Sound m s) (steps : List (Nat × Query)) : Sound m (s.after steps) := by
  induction steps generalizing s with
  | nil => exact hs
  | cons step steps ih => exact ih (hs.ask step.1 step.2)

/-! ## What runs show -/

/-- Asked for its parent, the handle `c` answers `p`. -/
def ShowsParent (s : Session ν) (c : Nat) (p : Option Nat) : Prop :=
  (s.ask c .parent).2 = some (.ok (.parent p))

/-- Every run of queries and drops from `s₀` keeps entities and parents as they were given. -/
structure WellLinked (m : Metamodel) (s₀ : Session ν) : Prop where
  /-- An element has the entity with the name of its rule. -/
  entity : ∀ steps (c : Nat) entry, (s₀.after steps).entries[c]? = some entry →
    m.entity? (SyntaxNode.rule entry.element.node) = some entry.element.entity ∧
      entry.element.entity.name = SyntaxNode.rule entry.element.node
  /-- Handles number the elements in the order in which queries give them. -/
  numbered : ∀ steps h q a, ((s₀.after steps).ask h q).2 = some (.ok a) →
    a.given.map Prod.fst = List.range' (s₀.after steps).entries.size a.given.length
  rootParent : ∀ steps, (0, .drop) ∉ steps → (s₀.after steps).ShowsParent 0 none
  /-- What a query gives has the handle that was asked as its parent, until this is dropped. -/
  parent : ∀ steps h q a c e, ((s₀.after steps).ask h q).2 = some (.ok a) → (c, e) ∈ a.given →
    ∀ later, (c, .drop) ∉ later →
      let s := s₀.after (steps ++ (h, q) :: later)
      s.element? c = some e ∧
        ((h, .drop) ∉ later →
          s.ShowsParent c (some h) ∧ s.element? h = (s₀.after steps).element? h) ∧
        ((h, .drop) ∈ later → s.ShowsParent c none)
  /-- A query that fails, or asks a handle that is not live, changes nothing. -/
  failed : ∀ steps h q, (∀ a, ((s₀.after steps).ask h q).2 ≠ some (.ok a)) →
    ((s₀.after steps).ask h q).1 = s₀.after steps
  /-- Following parents leads to ever earlier elements. -/
  walk : ∀ steps c walk,
    (c :: walk).IsChain (fun c p => (s₀.after steps).ShowsParent c (some p)) →
      (c :: walk).Pairwise (· > ·) ∧ walk.length ≤ c

theorem showsParent_of_live? {c : Nat} {entry : SessionEntry ν} (h : s.live? c = some entry) :
    s.ShowsParent c (s.parent? entry) := by
  unfold ShowsParent ask
  rw [h]
  rfl

theorem live?_of_showsParent {c : Nat} {p : Option Nat} (h : s.ShowsParent c p) :
    ∃ entry, s.live? c = some entry ∧ s.parent? entry = p := by
  cases hlive : s.live? c with
  | none =>
    unfold ShowsParent ask at h
    rw [hlive] at h
    cases h
  | some entry =>
    have hshown := (showsParent_of_live? hlive).symm.trans h
    cases hshown
    exact ⟨entry, rfl, rfl⟩

theorem Sound.lt_of_showsParent (hs : Sound m s) {c p : Nat} (h : s.ShowsParent c (some p)) :
    p < c := by
  obtain ⟨entry, hlive, hparent⟩ := live?_of_showsParent h
  have hp := (Option.filter_eq_some_iff.1 hparent).1
  exact (hs.entry (live?_eq_some_iff.1 hlive).1).older p hp

theorem Sound.length_walk_le (hs : Sound m s) {c : Nat} {walk : List Nat}
    (h : (c :: walk).IsChain fun c p => s.ShowsParent c (some p)) : walk.length ≤ c := by
  induction walk generalizing c with
  | nil => exact Nat.zero_le c
  | cons p walk ih =>
    obtain ⟨hparent, hrest⟩ := List.isChain_cons_cons.1 h
    have hlt := hs.lt_of_showsParent hparent
    have hle := ih hrest
    rw [List.length_cons]
    omega

theorem map_fst_given {h : Nat} {q : Query} {a : Answer ν}
    (hask : (s.ask h q).2 = some (.ok a)) :
    a.given.map Prod.fst = List.range' s.entries.size a.given.length := by
  rcases ask_cases s h q with ⟨-, hfails, -⟩ | ⟨-, hdrop⟩ | ⟨-, -, new, a', hpush, hgiven, -⟩
  · exact absurd hask (hfails a)
  · rw [hdrop] at hask
    cases hask
    rfl
  · rw [hpush] at hask
    cases hask
    have hlength : (s.push new).2.length = new.length := List.length_mapIdx
    rw [hgiven, map_fst_push, hlength]

/-- An entry of a run that started with it: live unless it was dropped. -/
theorem live?_after {c : Nat} {entry : SessionEntry ν} (hc : s.entries[c]? = some entry)
    (hlive : entry.live = true) {steps : List (Nat × Query)} (hkept : (c, .drop) ∉ steps) :
    (s.after steps).live? c = some entry := by
  obtain ⟨live, hentry, hiff⟩ := exists_entry_after hc steps
  obtain rfl : live = true := hiff.2 ⟨hlive, hkept⟩
  rw [← hlive] at hentry
  exact live?_eq_some_iff.2 ⟨hentry, hlive⟩

theorem live?_after_eq_none {c : Nat} {entry : SessionEntry ν} (hc : s.entries[c]? = some entry)
    {steps : List (Nat × Query)} (hdropped : (c, .drop) ∈ steps) :
    (s.after steps).live? c = none := by
  obtain ⟨live, hentry, hiff⟩ := exists_entry_after hc steps
  have hdead : ¬ live = true := fun hlive => (hiff.1 hlive).2 hdropped
  refine Option.eq_none_iff_forall_ne_some.2 fun entry' hlive => ?_
  obtain ⟨hentry', hlive'⟩ := live?_eq_some_iff.1 hlive
  obtain rfl := Option.some.inj (hentry.symm.trans hentry')
  exact hdead hlive'

/-- What a query gives, in every later session of the run. -/
theorem parent_after {h : Nat} {q : Query} {a : Answer ν} (hask : (s.ask h q).2 = some (.ok a))
    {c : Nat} {e : Element ν} (he : (c, e) ∈ a.given) {later : List (Nat × Query)}
    (hkept : (c, .drop) ∉ later) :
    (s.after ((h, q) :: later)).element? c = some e ∧
      ((h, .drop) ∉ later → (s.after ((h, q) :: later)).ShowsParent c (some h) ∧
        (s.after ((h, q) :: later)).element? h = s.element? h) ∧
      ((h, .drop) ∈ later → (s.after ((h, q) :: later)).ShowsParent c none) := by
  have hentry := entry_of_given hask he
  have hlive : (s.after ((h, q) :: later)).live? c = some ⟨e, some h, true⟩ :=
    live?_after hentry rfl hkept
  have hshown := showsParent_of_live? hlive
  obtain ⟨asked, hasked, hq⟩ : ∃ asked, s.live? h = some asked ∧ q ≠ .drop := by
    rcases ask_cases s h q with ⟨-, hfails, -⟩ | ⟨-, hdrop⟩ | ⟨hq, ⟨asked, hasked⟩, -⟩
    · exact absurd hask (hfails a)
    · rw [hdrop] at hask
      cases hask
      cases he
    · exact ⟨asked, hasked, hq⟩
  obtain ⟨hold, holdLive⟩ := live?_eq_some_iff.1 hasked
  refine ⟨?_, fun hh => ?_, fun hh => ?_⟩
  · rw [element?, hlive]
    rfl
  · have hstill : (s.after ((h, q) :: later)).live? h = some asked := by
      refine live?_after hold holdLive ?_
      rw [List.mem_cons, not_or]
      exact ⟨fun heq => hq (Prod.mk.inj heq).2.symm, hh⟩
    rw [parent?, Option.filter_some, if_pos (by rw [hstill]; rfl)] at hshown
    rw [element?, element?, hstill, hasked]
    exact ⟨hshown, rfl⟩
  · have hgone := live?_after_eq_none hold (List.mem_cons_of_mem (h, q) hh)
    rwa [parent?, Option.filter_some, if_neg (by rw [hgone]; simp)] at hshown

theorem showsParent_root {root : ν} (hstart : start m root = .ok s) {steps : List (Nat × Query)}
    (hkept : (0, .drop) ∉ steps) : (s.after steps).ShowsParent 0 none := by
  obtain ⟨entry, hentry, hstart⟩ := exists_of_bind_eq_ok hstart
  cases hstart
  rw [(SessionEntry.wrapped_of_wrap hentry).1]
  have hlive := live?_after (s := ⟨m, #[⟨entry.element, none, true⟩]⟩) (c := 0) rfl rfl hkept
  exact showsParent_of_live? hlive

/-- In every run from a root, elements have the entity of their rule; what a query gives has the
    handle that was asked as its parent until that is dropped, whatever else is asked and dropped; a
    query that fails changes nothing; and following parents comes to an end. -/
theorem wellLinked_of_start {root : ν} {s₀ : Session ν} (hstart : start m root = .ok s₀) :
    WellLinked m s₀ where
  entity := by
    intro steps c entry hc
    have hwrapped := (((sound_start hstart).after steps).entry hc).wrapped
    have hentity := (Element.wrap_eq_ok_iff.1 hwrapped).2
    exact ⟨hentity, Metamodel.name_of_entity? hentity⟩
  numbered := fun _ _ _ _ hask => map_fst_given hask
  rootParent := fun _ hkept => showsParent_root hstart hkept
  parent := by
    intro steps h q a c e hask he later hkept
    rw [after_append]
    exact parent_after hask he hkept
  failed := by
    intro steps h q hfails
    rcases ask_cases (s₀.after steps) h q with ⟨hsame, -⟩ | ⟨-, hdrop⟩ | ⟨-, -, _, a, hpush, -⟩
    · exact hsame
    · exact absurd (congrArg Prod.snd hdrop) (hfails _)
    · exact absurd (congrArg Prod.snd hpush) (hfails _)
  walk := by
    intro steps c walk hwalk
    have hs := (sound_start hstart).after steps
    have hfalling : (c :: walk).IsChain (· > ·) :=
      hwalk.imp fun _ _ hparent => hs.lt_of_showsParent hparent
    exact ⟨List.isChain_iff_pairwise.1 hfalling, hs.length_walk_le hwalk⟩

/-- A list that is its own rest, and that has a gap among its items. -/
def gapList : NodeGraph where
  size := 2
  entry place :=
    if place = 0 then
      { rule := "list", interval := ⟨0, 1⟩,
        fields := [("rest", .node (some 0)), ("items", .nodes [0, 1])] }
    else { rule := "gap", interval := ⟨0, 0⟩ }

def gapListMetamodel : Metamodel :=
  .ofEntities [⟨"list", [], [⟨"rest", .single, []⟩, ⟨"items", .multiple, []⟩]⟩]

def gapListElement : Element (GraphNode gapList) :=
  ⟨⟨⟨0, by decide⟩⟩, ⟨"list", [], [⟨"rest", .single, []⟩, ⟨"items", .multiple, []⟩]⟩⟩

/-- The list as the only handle. -/
def gapListSession : Session (GraphNode gapList) :=
  ⟨gapListMetamodel, #[⟨gapListElement, none, true⟩]⟩

/-- The rest of the rest keeps its parent when the root is dropped, the rest does not, and the
    items cannot be had for the gap among them. -/
theorem wellLinked_of_start_gapList :
    start gapListMetamodel gapListElement.node = .ok gapListSession ∧
      WellLinked gapListMetamodel gapListSession ∧
      (gapListSession.after [(0, .relationNamed "rest"), (1, .relationNamed "rest"),
        (1, .relationsNamed "items"), (0, .drop)]).ShowsParent 2 (some 1) ∧
      (gapListSession.after [(0, .relationNamed "rest"), (1, .relationNamed "rest"),
        (1, .relationsNamed "items"), (0, .drop)]).ShowsParent 1 none ∧
      (gapListSession.ask 0 (.relationsNamed "items")).2 =
        some (.error (.unknownEntity "gap")) := by
  have hstart : start gapListMetamodel gapListElement.node = .ok gapListSession := rfl
  have hlinked := wellLinked_of_start hstart
  have hitems : (gapListSession.ask 0 (.relationsNamed "items")).2 =
      some (.error (.unknownEntity "gap")) := rfl
  have hrest := hlinked.parent [(0, .relationNamed "rest")] 1 (.relationNamed "rest")
    (.element (some (2, gapListElement))) 2 gapListElement rfl (List.mem_singleton_self _)
    [(1, .relationsNamed "items"), (0, .drop)] (by simp)
  have hfirst := hlinked.parent [] 0 (.relationNamed "rest")
    (.element (some (1, gapListElement))) 1 gapListElement rfl (List.mem_singleton_self _)
    [(1, .relationNamed "rest"), (1, .relationsNamed "items"), (0, .drop)] (by simp)
  exact ⟨hstart, hlinked, (hrest.2.1 (by simp)).1, hfirst.2.2 (by simp), hitems⟩

end Session

end SourceOutline
