import SourceOutline.Outline.Descent

/-
  Outlines that come to an end, level by level.

  `outlineWith` is one level of an outline as a computation that always ends, the children shown by
  a function that does too. An outline that comes to an end is such a level above its children
  (`outlineWith_of_outlineAt`), whether it succeeds or fails; how deep it goes is all in how the
  children are shown (`run_contentAt_of_cut`, `run_contentAt_eq_ok_iff`).
-/

namespace SourceOutline

/-! ## Computations that need not end -/

/-- `y` is what `x` gives, if it comes to an end. -/
def Gives {α : Type} (x : ExceptT Fault Option α) (y : Except Fault α) : Prop :=
  ∀ r, x.run = some r → y = r

namespace Gives

variable {α β : Type}

theorem of_run {x : ExceptT Fault Option α} {y : Except Fault α} (h : x.run = some y) :
    Gives x y := by
  intro r hr
  exact Option.some.inj (h.symm.trans hr)

theorem bind {x : ExceptT Fault Option α} {y : Except Fault α} {f : α → ExceptT Fault Option β}
    {g : α → Except Fault β} (hx : Gives x y) (hf : ∀ a, Gives (f a) (g a)) :
    Gives (x >>= f) (y >>= g) := by
  intro r hr
  rw [ExceptT.run_bind] at hr
  cases hrun : x.run with
  | none => simp [hrun] at hr
  | some y' =>
    obtain rfl := hx y' hrun
    rw [hrun] at hr
    cases y with
    | error f => exact Option.some.inj hr
    | ok a => exact hf a r hr

theorem mapM {f : α → ExceptT Fault Option β} {g : α → Except Fault β}
    (h : ∀ a, Gives (f a) (g a)) (l : List α) : Gives (l.mapM f) (l.mapM g) := by
  induction l with
  | nil => exact of_run rfl
  | cons a l ih =>
    rw [List.mapM_cons, List.mapM_cons]
    exact bind (h a) fun b => bind ih fun bs => of_run rfl

end Gives

/-- What a computation gives, or some fault if it has no end. -/
def settle {α : Type} (x : ExceptT Fault Option α) : Except Fault α :=
  x.run.getD (.error (.unknownEntity ""))

theorem gives_settle {α : Type} (x : ExceptT Fault Option α) : Gives x (settle x) := by
  intro r hr
  rw [settle, hr, Option.getD_some]

theorem run_of_settle_eq_ok {α : Type} {x : ExceptT Fault Option α} {a : α}
    (h : settle x = .ok a) : x.run = some (.ok a) := by
  unfold settle at h
  cases hrun : x.run with
  | none => simp [hrun] at h
  | some r =>
    rw [hrun] at h
    exact congrArg some h

namespace Element

variable {ν : Type} [SyntaxNode ν] {m : Metamodel} {e c : Element ν}

/-! ## One level -/

/-- What a value or a child is in the outline, children shown by `descend`. -/
def contentOf (descend : Element ν → Except Fault OutlineContent) :
    Resolved (Element ν) → Except Fault OutlineContent
  | .value v => pure (.value v)
  | .element child => descend child

/-- The values at some references. -/
def plainValues (m : Metamodel) (descend : Element ν → Except Fault OutlineContent)
    (e : Element ν) : List Reference → Except Fault (List OutlineValue)
  | [] => .ok []
  | ref :: refs => do
    match ← e.valueAt m ref with
    | none => plainValues m descend e refs
    | some r =>
      let content ← contentOf descend r
      let rest ← plainValues m descend e refs
      pure (.mk ref.feature.name ref.index content :: rest)

/-- The span and the values of an element, children shown by `descend`. -/
def outlineWith (m : Metamodel) (descend : Element ν → Except Fault OutlineContent)
    (e : Element ν) : Except Fault Outline := do
  let span ← e.span
  let values ← e.plainValues m descend (← e.valuesOrder)
  pure (.mk e.entity.name span values)

/-- What stands at a reference, children shown by `descend`. -/
def plainAt (m : Metamodel) (descend : Element ν → Except Fault OutlineContent) (e : Element ν)
    (ref : Reference) : Except Fault (Option OutlineValue) := do
  match ← e.valueAt m ref with
  | none => pure none
  | some r => pure (some (.mk ref.feature.name ref.index (← contentOf descend r)))

theorem plainValues_eq_mapM (descend : Element ν → Except Fault OutlineContent)
    (refs : List Reference) :
    e.plainValues m descend refs = (do
      pure ((← refs.mapM (e.plainAt m descend)).filterMap id)) := by
  induction refs with
  | nil => rfl
  | cons ref refs ih =>
    rw [List.mapM_cons, plainValues, ih]
    generalize refs.mapM (e.plainAt m descend) = rest
    unfold plainAt
    cases e.valueAt m ref with
    | error f => rfl
    | ok r =>
      cases r with
      | none => cases rest <;> rfl
      | some r =>
        dsimp only [bind, Except.bind]
        cases contentOf descend r with
        | error f => rfl
        | ok content => cases rest <;> rfl

theorem mapM_congr {α β : Type} {f g : α → ExceptT Fault Option β} {l : List α}
    (h : ∀ a ∈ l, f a = g a) : l.mapM f = l.mapM g := by
  induction l with
  | nil => rfl
  | cons a l ih =>
    rw [List.mapM_cons, List.mapM_cons, h a (by simp),
      ih fun b hb => h b (List.mem_cons_of_mem _ hb)]

theorem showAt_congr {descend descend' : Element ν → ExceptT Fault Option OutlineContent}
    {ref : Reference}
    (h : ∀ c, e.valueAt m ref = .ok (some (.element c)) → descend c = descend' c) :
    e.showAt m descend ref = e.showAt m descend' ref := by
  unfold showAt
  cases hvalue : e.valueAt m ref with
  | error f => rfl
  | ok r =>
    match r, hvalue with
    | none, _ => rfl
    | some (.value v), _ => rfl
    | some (.element c), hvalue =>
      show descend c >>= _ = descend' c >>= _
      rw [h c hvalue]

/-- Only the children of an element are ever shown by `descend`. -/
theorem outlineBy_congr {descend descend' : Element ν → ExceptT Fault Option OutlineContent}
    (h : ∀ c, Child m e c → descend c = descend' c) :
    e.outlineBy m descend = e.outlineBy m descend' := by
  refine bind_congr fun span => ?_
  cases hrefs : e.valuesOrder with
  | error f => rfl
  | ok refs =>
    have hvalues : refs.mapM (e.showAt m descend) = refs.mapM (e.showAt m descend') :=
      mapM_congr fun ref href => showAt_congr fun c hc => h c ⟨refs, hrefs, ref, href, hc⟩
    show refs.mapM (e.showAt m descend) >>= _ = refs.mapM (e.showAt m descend') >>= _
    rw [hvalues]

theorem gives_showAt {shown : Element ν → ExceptT Fault Option OutlineContent}
    {descend : Element ν → Except Fault OutlineContent} (h : ∀ c, Gives (shown c) (descend c))
    (ref : Reference) : Gives (e.showAt m shown ref) (e.plainAt m descend ref) := by
  refine .bind (.of_run rfl) fun r => ?_
  match r with
  | none => exact .of_run rfl
  | some (.value v) => exact .of_run rfl
  | some (.element c) => exact .bind (h c) fun content => .of_run rfl

theorem gives_outlineBy {shown : Element ν → ExceptT Fault Option OutlineContent}
    {descend : Element ν → Except Fault OutlineContent} (h : ∀ c, Gives (shown c) (descend c)) :
    Gives (e.outlineBy m shown) (e.outlineWith m descend) := by
  refine .bind (.of_run rfl) fun span => .bind (.of_run rfl) fun refs => ?_
  rw [plainValues_eq_mapM, bind_assoc]
  exact .bind (.mapM (gives_showAt h) refs) fun values => .of_run rfl

/-! ## Outlines -/

/-- An outline that comes to an end is a level above what comes of the children. -/
theorem outlineWith_of_outlineAt {limit : Option Nat} {depth : Nat} {r : Except Fault Outline}
    (h : (e.outlineAt m limit depth).run = some r) :
    e.outlineWith m (fun c => settle (c.contentAt m limit depth)) = r := by
  rw [outlineAt_eq] at h
  exact gives_outlineBy (fun c => gives_settle _) r h

/-- From the limit on a child is named and nothing else. -/
theorem run_contentAt_of_cut {limit : Option Nat} {depth : Nat} (h : limit.any (· ≤ depth)) :
    (c.contentAt m limit depth).run = some (.ok (.elided c.entity.name)) := by
  rw [contentAt, if_pos h]
  rfl

/-- Before the limit a child is shown as its own outline, one level further down. -/
theorem run_contentAt_of_not_cut {limit : Option Nat} {depth : Nat}
    (h : ¬ limit.any (· ≤ depth)) : (c.contentAt m limit depth).run =
      (c.outlineAt m limit (depth + 1)).run.map (Except.map .element) := by
  rw [contentAt, if_neg h, ExceptT.run_map]
  rfl

theorem run_contentAt_eq_ok_iff {limit : Option Nat} {depth : Nat}
    (h : ¬ limit.any (· ≤ depth)) {content : OutlineContent} :
    (c.contentAt m limit depth).run = some (.ok content) ↔
      ∃ sub, content = .element sub ∧ (c.outlineAt m limit (depth + 1)).run = some (.ok sub) := by
  rw [run_contentAt_of_not_cut h]
  constructor
  · intro hcontent
    obtain ⟨r, hr, hmap⟩ := Option.map_eq_some_iff.1 hcontent
    cases r with
    | error f => cases hmap
    | ok sub => exact ⟨sub, (Except.ok.inj hmap).symm, hr⟩
  · rintro ⟨sub, rfl, hsub⟩
    rw [hsub]
    rfl

/-- The level of an element of which it is known what comes of each child. -/
theorem run_outlineAt_eq {limit : Option Nat} {depth : Nat}
    {shown : Element ν → Except Fault OutlineContent}
    (h : ∀ c, Child m e c → (c.contentAt m limit depth).run = some (shown c)) :
    (e.outlineAt m limit depth).run = some (e.outlineWith m shown) := by
  have hlevel : e.outlineAt m limit depth =
      e.outlineBy m fun c => (.mk (some (shown c)) : ExceptT Fault Option OutlineContent) := by
    rw [outlineAt_eq]
    exact outlineBy_congr fun c hc => ExceptT.ext (h c hc)
  have hsome : (e.outlineAt m limit depth).run.isSome := by
    rw [hlevel]
    exact isSome_outlineBy fun c _ => rfl
  obtain ⟨r, hr⟩ := Option.isSome_iff_exists.1 hsome
  rw [hlevel] at hr
  rw [hlevel, hr, gives_outlineBy (fun c => .of_run rfl) r hr]

/-- An element without features is shown with its span alone. -/
theorem run_outlineAt_of_featureless (hproperties : e.entity.properties = [])
    (hrelations : e.entity.relations = []) (limit : Option Nat) (depth : Nat) :
    (e.outlineAt m limit depth).run = some (e.span.map fun s => .mk e.entity.name s []) := by
  have hemission : e.emission = .ok [] := by
    rw [emission, hproperties, hrelations]
    rfl
  have horder : e.valuesOrder = .ok [] := by
    rw [valuesOrder, hemission]
    show Except.ok (([].mergeSort Emitted.le).map Emitted.reference) = _
    rw [List.mergeSort_nil, List.map_nil]
  rw [outlineAt_eq, outlineBy, horder]
  cases e.span with
  | error f => rfl
  | ok s => rfl

theorem run_contentAt_of_featureless (hproperties : c.entity.properties = [])
    (hrelations : c.entity.relations = []) (depth : Nat) :
    (c.contentAt m none depth).run =
      some (c.span.map fun s => .element (.mk c.entity.name s [])) := by
  rw [run_contentAt_of_not_cut (by simp), run_outlineAt_of_featureless hproperties hrelations]
  cases c.span with
  | error f => rfl
  | ok s => rfl

/-! ## The values of an outline -/

/-- Every value of an outline stands at a reference of the element. -/
theorem exists_reference_of_mem_values {descend : Element ν → Except Fault OutlineContent}
    {o : Outline} (ho : e.outlineWith m descend = .ok o) {name : String} {i : Nat}
    {content : OutlineContent} (h : .mk name i content ∈ o.values) :
    ∃ refs, e.valuesOrder = .ok refs ∧ ∃ ref ∈ refs, ref.feature.name = name ∧ ref.index = i ∧
      ∃ r, e.valueAt m ref = .ok (some r) ∧ contentOf descend r = .ok content := by
  obtain ⟨span, -, ho⟩ := exists_of_bind_eq_ok ho
  obtain ⟨refs, hrefs, ho⟩ := exists_of_bind_eq_ok ho
  obtain ⟨values, hvalues, ho⟩ := exists_of_bind_eq_ok ho
  obtain rfl := Except.ok.inj ho
  rw [plainValues_eq_mapM] at hvalues
  obtain ⟨shown, hshown, hvalues⟩ := exists_of_bind_eq_ok hvalues
  obtain rfl := Except.ok.inj hvalues
  obtain ⟨v, hv, rfl⟩ := List.mem_filterMap.1 h
  obtain ⟨ref, href, hshow⟩ := mem_of_mapM_eq_ok hshown hv
  obtain ⟨r, hr, hshow⟩ := exists_of_bind_eq_ok hshow
  cases r with
  | none => cases hshow
  | some r =>
    obtain ⟨content', hcontent, hshow⟩ := exists_of_bind_eq_ok hshow
    cases hshow
    exact ⟨refs, hrefs, ref, href, rfl, rfl, r, hr, hcontent⟩

/-- A child that is shown as an outline is shown as its own outline one level further down. -/
theorem exists_child_of_mem_values {limit : Option Nat} {depth : Nat} {o : Outline}
    (ho : (e.outlineAt m limit depth).run = some (.ok o)) {name : String} {i : Nat}
    {sub : Outline} (h : .mk name i (.element sub) ∈ o.values) :
    ∃ refs, e.valuesOrder = .ok refs ∧ ∃ ref ∈ refs, ∃ child,
      (ref.feature.name = name ∧ ref.index = i ∧ e.valueAt m ref = .ok (some (.element child))) ∧
      (child.outlineAt m limit (depth + 1)).run = some (.ok sub) := by
  obtain ⟨refs, hrefs, ref, href, hname, hindex, r, hr, hcontent⟩ :=
    exists_reference_of_mem_values (outlineWith_of_outlineAt ho) h
  cases r with
  | value v => cases hcontent
  | element child =>
    have hshown := run_of_settle_eq_ok hcontent
    refine ⟨refs, hrefs, ref, href, child, ⟨hname, hindex, hr⟩, ?_⟩
    by_cases hcut : limit.any (· ≤ depth)
    · cases (run_contentAt_of_cut hcut).symm.trans hshown
    · obtain ⟨sub', heq, hsub⟩ := (run_contentAt_eq_ok_iff hcut).1 hshown
      cases heq
      exact hsub

theorem exists_of_count_eq {x : Option (Except Fault Outline)} {n : Nat}
    (h : (x.bind Except.toOption).map Outline.count = some n) :
    ∃ o, x = some (.ok o) ∧ o.count = n := by
  obtain ⟨o, ho, hcount⟩ := Option.map_eq_some_iff.1 h
  match x, ho with
  | some (.ok o'), ho =>
    cases ho
    exact ⟨o, rfl, hcount⟩

end Element

end SourceOutline
