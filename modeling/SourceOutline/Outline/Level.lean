import SourceOutline.Outline.Render

/-
  One level of an outline: the span of an element and its values, with the children shown in
  whichever way is asked for (`outlineBy`). Every reference is looked up afresh.

  An outline is such a level above the outlines of the children (`outlineAt_eq`). The lists that it
  keeps on the way are those that another look-up would give (`Coherent`). A kept list is found by
  the kind and the name of its feature alone, which is enough: features that hold lists differ for
  a node in nothing else (`resolveList_congr`).
-/

namespace SourceOutline.Element

variable {ν : Type} [SyntaxNode ν] {m : Metamodel} {e : Element ν}

/-- What stands at a reference, children shown by `descend`. -/
def showAt (m : Metamodel) (descend : Element ν → ExceptT Fault Option OutlineContent)
    (e : Element ν) (ref : Reference) : ExceptT Fault Option (Option OutlineValue) := do
  match ← e.valueAt m ref with
  | none => pure none
  | some (.value v) => pure (some (.mk ref.feature.name ref.index (.value v)))
  | some (.element child) =>
    pure (some (.mk ref.feature.name ref.index (← descend child)))

/-- The span and the values of an element, children shown by `descend`. -/
def outlineBy (m : Metamodel) (descend : Element ν → ExceptT Fault Option OutlineContent)
    (e : Element ν) : ExceptT Fault Option Outline := do
  let span ← e.span
  let refs ← e.valuesOrder
  let values ← refs.mapM (e.showAt m descend)
  pure (.mk e.entity.name span (values.filterMap id))

/-- What a child of an element at `depth` is in the outline. -/
def contentAt (m : Metamodel) (limit : Option Nat) (depth : Nat) (child : Element ν) :
    ExceptT Fault Option OutlineContent :=
  if limit.any (· ≤ depth) then pure (.elided child.entity.name)
  else .element <$> child.outlineAt m limit (depth + 1)

/-! ## Features that hold lists -/

/-- A feature that holds a list is resolved by its kind and its name. -/
theorem resolveList_congr {f g : Feature} (hf : f.multiplicity = .multiple)
    (hg : g.multiplicity = .multiple) (hkind : f.isRelation = g.isRelation)
    (hname : f.name = g.name) : e.resolveList m f = e.resolveList m g := by
  cases f with
  | property p =>
    cases g with
    | property q =>
      simp only [Feature.multiplicity, Feature.name] at hf hg hname
      simp only [resolveList, multipleProperty, hf, hg, hname]
    | relation q => simp [Feature.isRelation] at hkind
  | relation r =>
    cases g with
    | property q => simp [Feature.isRelation] at hkind
    | relation q =>
      simp only [Feature.multiplicity, Feature.name] at hf hg hname
      simp only [resolveList, multipleRelation, multipleRelationBy, childNodes, hf, hg, hname]

theorem valueAt_of_multiple {ref : Reference} (h : ref.feature.multiplicity = .multiple) :
    e.valueAt m ref = (do pure (← e.resolveList m ref.feature)[ref.index]?) := by
  obtain ⟨f, i⟩ := ref
  cases f with
  | property p =>
    simp only [Feature.multiplicity] at h
    simp only [valueAt, valueAtBy, resolveList, Property.isSingle, h]
    cases e.multipleProperty p with
    | error f => rfl
    | ok vs => simp [bind, Except.bind, pure, Except.pure]
  | relation r =>
    simp only [Feature.multiplicity] at h
    simp only [valueAt, valueAtBy, resolveList, multipleRelation, Relation.isSingle, h]
    cases e.multipleRelationBy (wrap m) r with
    | error f => rfl
    | ok cs => simp [bind, Except.bind, pure, Except.pure]

/-! ## The lists that are kept -/

/-- Every list that is kept is what its feature resolves to. -/
def Coherent (m : Metamodel) (e : Element ν) (cache : ListCache ν) : Prop :=
  ∀ entry ∈ cache, ∀ f : Feature, f.multiplicity = .multiple →
    (f.isRelation, f.name) = entry.1 → e.resolveList m f = .ok entry.2

theorem coherent_nil : Coherent m e [] := by
  intro entry h
  simp at h

theorem coherent_cons {cache : ListCache ν} (h : Coherent m e cache) {f : Feature}
    (hf : f.multiplicity = .multiple) {list : Array (Resolved (Element ν))}
    (hlist : e.resolveList m f = .ok list) :
    Coherent m e (((f.isRelation, f.name), list) :: cache) := by
  intro entry hentry g hg hkey
  rcases List.mem_cons.1 hentry with rfl | hentry
  · obtain ⟨hkind, hname⟩ := Prod.mk.inj hkey
    rw [resolveList_congr hg hf hkind hname, hlist]
  · exact h entry hentry g hg hkey

/-- With coherent lists a reference leads to what `valueAt` gives, and the lists stay coherent. -/
theorem resolve_of_coherent {cache : ListCache ν} (h : Coherent m e cache) (ref : Reference) :
    ∃ cache', Coherent m e cache' ∧
      e.resolve m cache ref = (fun resolved => (resolved, cache')) <$> e.valueAt m ref := by
  unfold resolve
  cases hm : ref.feature.multiplicity with
  | single => exact ⟨cache, h, by cases e.valueAt m ref <;> rfl⟩
  | multiple =>
    rw [valueAt_of_multiple hm]
    dsimp only
    cases hfind : Keyed.find? Prod.fst (ref.feature.isRelation, ref.feature.name) cache with
    | some entry =>
      have hlist :=
        h entry (Keyed.mem_of_find? hfind) ref.feature hm (Keyed.key_of_find? hfind).symm
      rw [hlist]
      exact ⟨cache, h, rfl⟩
    | none =>
      cases hlist : e.resolveList m ref.feature with
      | error f => exact ⟨cache, h, rfl⟩
      | ok list => exact ⟨_, coherent_cons h hm hlist, rfl⟩

/-! ## A level, reference by reference -/

/-- Adds what a reference leads to, found with the lists that are kept. -/
def addValue (m : Metamodel) (descend : Element ν → ExceptT Fault Option OutlineContent)
    (e : Element ν) (state : Array OutlineValue × ListCache ν) (ref : Reference) :
    ExceptT Fault Option (Array OutlineValue × ListCache ν) := do
  let (resolved, cache) ← e.resolve m state.2 ref
  match resolved with
  | none => pure (state.1, cache)
  | some (.value v) => pure (state.1.push (.mk ref.feature.name ref.index (.value v)), cache)
  | some (.element child) =>
    let content ← descend child
    pure (state.1.push (.mk ref.feature.name ref.index content), cache)

theorem addValue_of_coherent (descend : Element ν → ExceptT Fault Option OutlineContent)
    {cache : ListCache ν} (h : Coherent m e cache) (values : Array OutlineValue)
    (ref : Reference) :
    ∃ cache', Coherent m e cache' ∧ e.addValue m descend (values, cache) ref =
      (fun shown => (values ++ shown.toArray, cache')) <$> e.showAt m descend ref := by
  obtain ⟨cache', h', hresolve⟩ := resolve_of_coherent h ref
  refine ⟨cache', h', ?_⟩
  unfold addValue showAt
  dsimp only
  rw [hresolve, liftM_map, bind_map_left, map_bind]
  refine bind_congr fun resolved => ?_
  match resolved with
  | none => simp
  | some (.value v) => simp
  | some (.element child) => simp

theorem map_foldlM_addValue (descend : Element ν → ExceptT Fault Option OutlineContent)
    {cache : ListCache ν} (h : Coherent m e cache) (values : Array OutlineValue)
    (refs : List Reference) :
    Prod.fst <$> refs.foldlM (e.addValue m descend) (values, cache) =
      (fun shown => values ++ (shown.filterMap id).toArray) <$>
        refs.mapM (e.showAt m descend) := by
  induction refs generalizing values cache with
  | nil => simp
  | cons ref refs ih =>
    obtain ⟨cache', h', hadd⟩ := addValue_of_coherent descend h values ref
    rw [List.foldlM_cons, List.mapM_cons, hadd, bind_map_left, map_bind, map_bind]
    refine bind_congr fun shown => ?_
    rw [ih h']
    cases shown <;> simp

/-- An outline is a level above the outlines of the children. -/
theorem outlineAt_eq (m : Metamodel) (limit : Option Nat) (depth : Nat) (e : Element ν) :
    e.outlineAt m limit depth = e.outlineBy m (contentAt m limit depth) := by
  rw [outlineAt, outlineBy]
  refine bind_congr fun span => bind_congr fun refs => ?_
  have hcoherent : Coherent m e [] := coherent_nil
  have hvalues := map_foldlM_addValue (contentAt m limit depth) hcoherent #[] refs
  calc
    _ = (fun values => .mk e.entity.name span values.toList) <$>
          Prod.fst <$> refs.foldlM (e.addValue m (contentAt m limit depth)) (#[], []) := by
      rw [map_eq_pure_bind, map_eq_pure_bind, bind_assoc]
      simp only [pure_bind]
      rfl
    _ = _ := by
      rw [hvalues]
      simp

end SourceOutline.Element
