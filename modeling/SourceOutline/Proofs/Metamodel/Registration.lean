import Mathlib.Data.Finset.Card
import Mathlib.Data.List.Induction
import SourceOutline.Metamodel.Basic

/-
  A table of entities is a map that keeps the order of insertion.

  After any sequence of registrations the index gives the place of every entity, and there is one
  entity for each name: the one that came last under the name, in the place that the first one took
  (`Records`). This rests on what one registration does: index and list stay in step
  (`EntityTable.Coherent.register`), the names stay, or a new one is added behind them
  (`names_register`), and the entities of other names stay (`cases_of_mem_register`).
-/

namespace SourceOutline.Metamodel

/-- `e` is an entity of the sequence, and none of its name comes after it. -/
def LastNamed (l : List Entity) (e : Entity) : Prop :=
  ∃ before after, l = before ++ e :: after ∧ e.name ∉ after.map Entity.name

/-- The table is what the registrations `l`, in this order, amount to. -/
structure Records (l : List Entity) (t : EntityTable) : Prop where
  /-- The index gives each name the place of its entity, and no other names. -/
  coherent : t.Coherent
  /-- Every name once, ordered by when it first came. -/
  names : t.names = (l.map Entity.name).eraseDups
  last : ∀ e ∈ t.entities, LastNamed l e
  registered : ∀ rule ∈ l.map Entity.name,
    ∃ e ∈ t.entities, e.name = rule ∧ t.entity? rule = some e
  unknown : ∀ rule ∉ l.map Entity.name, t.entity? rule = none
  size : t.size = (l.map Entity.name).toFinset.card

/-! ## One registration -/

theorem lastNamed_concat (l : List Entity) (e : Entity) : LastNamed (l ++ [e]) e :=
  ⟨l, [], rfl, by simp⟩

theorem LastNamed.concat {l : List Entity} {x : Entity} (h : LastNamed l x) {e : Entity}
    (hne : x.name ≠ e.name) : LastNamed (l ++ [e]) x := by
  obtain ⟨before, after, rfl, hafter⟩ := h
  refine ⟨before, after ++ [e], by simp, ?_⟩
  rw [List.map_append, List.mem_append, not_or]
  exact ⟨hafter, by simpa using hne⟩

/-- What stands in a metamodel after a registration is the new entity or an old one of another
    name. -/
theorem cases_of_mem_register {m : Metamodel} {e x : Entity} (h : x ∈ (m.register e).entities) :
    x = e ∨ x ∈ m.entities ∧ x.name ≠ e.name := by
  have hfound := entity?_of_mem h
  rw [entity?_register] at hfound
  split at hfound
  · exact .inl (Option.some.inj hfound).symm
  · next hne => exact .inr ⟨mem_of_entity? hfound, Ne.symm hne⟩

theorem eraseDups_concat (names : List String) (name : String) :
    (names ++ [name]).eraseDups =
      if name ∈ names then names.eraseDups else names.eraseDups ++ [name] := by
  rw [List.eraseDups_append]
  by_cases h : name ∈ names
  · have hremoved : [name].removeAll names = [] := by simp [List.removeAll, h]
    rw [hremoved, if_pos h, List.eraseDups_nil, List.append_nil]
  · have hremoved : [name].removeAll names = [name] := by simp [List.removeAll, h]
    rw [hremoved, if_neg h]
    rfl

/-- A registration leaves every other name where it is. -/
theorem idxOf?_names_register (m : Metamodel) {e : Entity} {rule : String} (hne : rule ≠ e.name) :
    (m.register e).names.idxOf? rule = m.names.idxOf? rule := by
  rw [names_register]
  split
  · rfl
  · have hnone : [e.name].findIdx? (· == rule) = none := by simpa using hne.symm
    unfold List.idxOf?
    rw [List.findIdx?_append, hnone, Option.map_none, Option.or_none]

/-! ## Any number of registrations -/

theorem ofEntities_concat (l : List Entity) (e : Entity) :
    ofEntities (l ++ [e]) = (ofEntities l).register e := by
  unfold ofEntities
  rw [List.foldl_append]
  rfl

theorem names_ofEntities (l : List Entity) :
    (ofEntities l).names = (l.map Entity.name).eraseDups := by
  induction l using List.reverseRecOn with
  | nil => rfl
  | append_singleton l e ih =>
    rw [ofEntities_concat, names_register, List.map_append, List.map_singleton, eraseDups_concat,
      ih]
    simp only [List.mem_eraseDups]

theorem lastNamed_of_mem_ofEntities (l : List Entity) :
    ∀ e ∈ (ofEntities l).entities, LastNamed l e := by
  induction l using List.reverseRecOn with
  | nil => simp [ofEntities, EmptyCollection.emptyCollection]
  | append_singleton l e ih =>
    intro x hx
    rw [ofEntities_concat] at hx
    rcases cases_of_mem_register hx with rfl | ⟨hx, hne⟩
    · exact lastNamed_concat l x
    · exact (ih x hx).concat hne

/-- Names that stand each once are as many as there are names. -/
theorem size_eq_card {m : Metamodel} {given : List String} (h : m.names = given.eraseDups) :
    m.size = given.toFinset.card := by
  have hset : m.names.toFinset = given.toFinset := by
    ext name
    rw [List.mem_toFinset, List.mem_toFinset, h, List.mem_eraseDups]
  rw [← hset, List.toFinset_card_of_nodup m.nodup_names]
  exact (List.length_map Entity.name).symm

/-- A metamodel is the table of its registrations, one after the other. -/
theorem toEntityTable_ofEntities (l : List Entity) :
    (ofEntities l).toEntityTable = l.foldl EntityTable.register ∅ := by
  induction l using List.reverseRecOn with
  | nil => rfl
  | append_singleton l e ih =>
    rw [ofEntities_concat, List.foldl_append, ← ih]
    rfl

/-- After any sequence of registrations a table holds the last entity of every name, the names in
    the order in which they first came, with the index in step; and one more registration changes
    neither what is found under another name nor where that name stands. -/
theorem registrations_recorded (l : List Entity) :
    Records l (l.foldl EntityTable.register ∅) ∧ ∀ e rule, rule ≠ e.name →
      ((l ++ [e]).foldl EntityTable.register ∅).entity? rule =
          (l.foldl EntityTable.register ∅).entity? rule ∧
        ((l ++ [e]).foldl EntityTable.register ∅).names.idxOf? rule =
          (l.foldl EntityTable.register ∅).names.idxOf? rule := by
  have hnames := names_ofEntities l
  constructor
  · rw [← toEntityTable_ofEntities]
    refine ⟨(ofEntities l).coherent, hnames, lastNamed_of_mem_ofEntities l, ?_, ?_,
      size_eq_card hnames⟩
    · intro rule hrule
      rw [← List.mem_eraseDups, ← hnames] at hrule
      obtain ⟨e, he, rfl⟩ := List.mem_map.1 hrule
      exact ⟨e, he, rfl, entity?_of_mem he⟩
    · intro rule hrule
      rw [← List.mem_eraseDups, ← hnames] at hrule
      exact entity?_eq_none_iff.2 hrule
  · intro e rule hne
    rw [← toEntityTable_ofEntities, ← toEntityTable_ofEntities, ofEntities_concat]
    constructor
    · exact (entity?_register _ e rule).trans (if_neg hne.symm)
    · exact idxOf?_names_register _ hne

/-- Calls, modules, and calls once more. -/
def replacedCall : List Entity :=
  [⟨"call", [], []⟩, ⟨"module", [], []⟩, ⟨"call", [⟨"name", .single⟩], []⟩]

def bodyModule : Entity := ⟨"module", [], [⟨"body", .multiple, []⟩]⟩

theorem registrations_recorded_replacedCall :
    replacedCall.foldl EntityTable.register ∅ =
        ⟨[⟨"call", [⟨"name", .single⟩], []⟩, ⟨"module", [], []⟩], [("call", 0), ("module", 1)]⟩ ∧
      "call" ≠ bodyModule.name ∧
      ((replacedCall ++ [bodyModule]).foldl EntityTable.register ∅).entity? "call" =
        some ⟨"call", [⟨"name", .single⟩], []⟩ := by
  have hne : "call" ≠ bodyModule.name := by decide
  obtain ⟨-, hother⟩ := registrations_recorded replacedCall
  refine ⟨by decide, hne, ?_⟩
  rw [(hother bodyModule "call" hne).1]
  decide

end SourceOutline.Metamodel
