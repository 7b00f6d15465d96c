import SourceOutline.Keyed
import SourceOutline.Metamodel.Entity

/-
  A metamodel: the entities of a grammar by the rule that they describe, in the order in which
  their names were first registered. Registering a name again replaces its entity in place.

  The entities stand in a list, and an index gives the place of every name in it (`EntityTable`).
  A table is a metamodel if the two agree (`EntityTable.Coherent`): every place in the index is that
  of an entity of the name, and every entity is in the index at its own place. With them in step the
  table is nothing but the list of its entities: registering puts an entity into it by name, and
  looking a rule up finds it there (`entities_register`, `entity?_eq_find?`).
-/

namespace SourceOutline

structure EntityTable where
  entities : List Entity
  /-- The place of each name among the entities. -/
  index : List (String × Nat)
deriving DecidableEq

namespace EntityTable

instance : EmptyCollection EntityTable := ⟨⟨[], []⟩⟩

def place? (t : EntityTable) (rule : String) : Option Nat :=
  (Keyed.find? Prod.fst rule t.index).map Prod.snd

/-- Replaces the entity of the same name where it stands, or adds a new one at the end. -/
def register (t : EntityTable) (e : Entity) : EntityTable :=
  match t.place? e.name with
  | some i => { t with entities := t.entities.set i e }
  | none => ⟨t.entities ++ [e], Keyed.put Prod.fst (e.name, t.entities.length) t.index⟩

def entity? (t : EntityTable) (rule : String) : Option Entity :=
  (t.place? rule).bind fun i => t.entities[i]?

def names (t : EntityTable) : List String := t.entities.map Entity.name

def size (t : EntityTable) : Nat := t.entities.length

/-- The index and the list agree. -/
structure Coherent (t : EntityTable) : Prop where
  /-- A place in the index is that of an entity of the name. -/
  found : ∀ {rule i}, t.place? rule = some i → ∃ e, t.entities[i]? = some e ∧ e.name = rule
  /-- An entity is in the index at its own place. -/
  indexed : ∀ {i : Nat} {e}, t.entities[i]? = some e → t.place? e.name = some i

theorem coherent_empty : Coherent ∅ where
  found h := by cases h
  indexed h := by cases h

/-! ## One registration -/

theorem register_of_place? {t : EntityTable} {e : Entity} {i : Nat}
    (h : t.place? e.name = some i) :
    t.register e = { t with entities := t.entities.set i e } := by
  rw [register, h]

theorem register_of_new {t : EntityTable} {e : Entity} (h : t.place? e.name = none) :
    t.register e =
      ⟨t.entities ++ [e], Keyed.put Prod.fst (e.name, t.entities.length) t.index⟩ := by
  rw [register, h]

/-- A new name gets the place behind all others. -/
theorem place?_register_of_new {t : EntityTable} {e : Entity} (h : t.place? e.name = none)
    (rule : String) :
    (t.register e).place? rule =
      if e.name = rule then some t.entities.length else t.place? rule := by
  rw [register_of_new h, place?, Keyed.find?_put]
  dsimp only
  split
  · rfl
  · rfl

theorem Coherent.replace {t : EntityTable} (ht : t.Coherent) {e : Entity} {i : Nat}
    (h : t.place? e.name = some i) : Coherent { t with entities := t.entities.set i e } := by
  obtain ⟨old, hold, hname⟩ := ht.found h
  have hlt : i < t.entities.length := (List.getElem?_eq_some_iff.1 hold).1
  refine ⟨fun {rule j} hrule => ?_, fun {j x} hx => ?_⟩
  · obtain ⟨x, hx, hxname⟩ := ht.found hrule
    by_cases hij : i = j
    · subst hij
      obtain rfl := Option.some.inj (hold.symm.trans hx)
      exact ⟨e, List.getElem?_set_self hlt, hname.symm.trans hxname⟩
    · exact ⟨x, (List.getElem?_set_ne hij).trans hx, hxname⟩
  · by_cases hij : i = j
    · subst hij
      obtain rfl := Option.some.inj ((List.getElem?_set_self hlt).symm.trans hx)
      exact h
    · exact ht.indexed ((List.getElem?_set_ne hij).symm.trans hx)

theorem Coherent.append {t : EntityTable} (ht : t.Coherent) {e : Entity}
    (h : t.place? e.name = none) : (t.register e).Coherent := by
  have hentities : (t.register e).entities = t.entities ++ [e] := by rw [register_of_new h]
  refine ⟨fun {rule j} hrule => ?_, fun {j x} hx => ?_⟩
  · rw [place?_register_of_new h] at hrule
    rw [hentities]
    split at hrule
    · next hname =>
      obtain rfl := Option.some.inj hrule
      exact ⟨e, List.getElem?_concat_length, hname⟩
    · obtain ⟨x, hx, hxname⟩ := ht.found hrule
      exact ⟨x, (List.getElem?_append_left (List.getElem?_eq_some_iff.1 hx).1).trans hx, hxname⟩
  · rw [place?_register_of_new h]
    rw [hentities] at hx
    rcases Nat.lt_or_ge j t.entities.length with hlt | hge
    · rw [List.getElem?_append_left hlt] at hx
      have hplace := ht.indexed hx
      rw [if_neg, hplace]
      intro hname
      rw [← hname, h] at hplace
      cases hplace
    · -- the only entity behind the old ones is the new one
      rw [List.getElem?_append_right hge, List.getElem?_singleton] at hx
      split at hx
      · next hzero =>
        obtain rfl := Option.some.inj hx
        rw [if_pos rfl, Option.some.injEq]
        omega
      · cases hx

/-- Registering keeps list and index in step. -/
theorem Coherent.register {t : EntityTable} (ht : t.Coherent) (e : Entity) :
    (t.register e).Coherent := by
  cases h : t.place? e.name with
  | some i =>
    rw [register_of_place? h]
    exact ht.replace h
  | none => exact ht.append h

/-! ## The list of entities alone -/

theorem Coherent.nodup_names {t : EntityTable} (ht : t.Coherent) : t.names.Nodup := by
  rw [List.nodup_iff_pairwise_ne, names, List.pairwise_map, List.pairwise_iff_getElem]
  intro i j hi hj hij hname
  have hplace := ht.indexed (List.getElem?_eq_getElem hi)
  rw [hname, ht.indexed (List.getElem?_eq_getElem hj), Option.some.injEq] at hplace
  omega

theorem Coherent.entity?_eq_find? {t : EntityTable} (ht : t.Coherent) (rule : String) :
    t.entity? rule = Keyed.find? Entity.name rule t.entities := by
  unfold entity?
  cases hplace : t.place? rule with
  | some i =>
    obtain ⟨e, he, rfl⟩ := ht.found hplace
    rw [Keyed.find?_of_mem ht.nodup_names (List.mem_of_getElem? he)]
    exact he
  | none =>
    refine (Keyed.find?_eq_none_iff.2 fun hmem => ?_).symm
    obtain ⟨e, he, rfl⟩ := List.mem_map.1 hmem
    obtain ⟨i, hi⟩ := List.mem_iff_getElem?.1 he
    rw [ht.indexed hi] at hplace
    cases hplace

theorem Coherent.entities_register {t : EntityTable} (ht : t.Coherent) (e : Entity) :
    (t.register e).entities = Keyed.put Entity.name e t.entities := by
  cases h : t.place? e.name with
  | some i =>
    obtain ⟨old, hold, hname⟩ := ht.found h
    rw [register_of_place? h, Keyed.put_of_getElem? ht.nodup_names hold hname]
  | none =>
    have hnone := ht.entity?_eq_find? e.name
    rw [entity?, h] at hnone
    rw [register_of_new h, Keyed.put_of_not_mem (Keyed.find?_eq_none_iff.1 hnone.symm)]

end EntityTable

/-- A table whose index agrees with its entities. -/
structure Metamodel extends EntityTable where
  coherent : toEntityTable.Coherent

namespace Metamodel

instance : EmptyCollection Metamodel := ⟨⟨∅, EntityTable.coherent_empty⟩⟩

def register (m : Metamodel) (e : Entity) : Metamodel :=
  ⟨m.toEntityTable.register e, m.coherent.register e⟩

def ofEntities (l : List Entity) : Metamodel := l.foldl register ∅

def entity? (m : Metamodel) (rule : String) : Option Entity := m.toEntityTable.entity? rule

def size (m : Metamodel) : Nat := m.toEntityTable.size

def isEmpty (m : Metamodel) : Bool := m.entities.isEmpty

def names (m : Metamodel) : List String := m.toEntityTable.names

theorem nodup_names (m : Metamodel) : m.names.Nodup := m.coherent.nodup_names

theorem entity?_eq_find? (m : Metamodel) (rule : String) :
    m.entity? rule = Keyed.find? Entity.name rule m.entities :=
  m.coherent.entity?_eq_find? rule

theorem entities_register (m : Metamodel) (e : Entity) :
    (m.register e).entities = Keyed.put Entity.name e m.entities :=
  m.coherent.entities_register e

theorem entity?_register (m : Metamodel) (e : Entity) (rule : String) :
    (m.register e).entity? rule = if e.name = rule then some e else m.entity? rule := by
  rw [entity?_eq_find?, entity?_eq_find?, entities_register, Keyed.find?_put]

theorem names_register (m : Metamodel) (e : Entity) :
    (m.register e).names = if e.name ∈ m.names then m.names else m.names ++ [e.name] := by
  show (m.register e).entities.map Entity.name = _
  rw [entities_register]
  exact Keyed.keys_put Entity.name e m.entities

theorem name_of_entity? {m : Metamodel} {rule : String} {e : Entity} (h : m.entity? rule = some e) :
    e.name = rule := by
  rw [entity?_eq_find?] at h
  exact Keyed.key_of_find? h

theorem mem_of_entity? {m : Metamodel} {rule : String} {e : Entity} (h : m.entity? rule = some e) :
    e ∈ m.entities := by
  rw [entity?_eq_find?] at h
  exact Keyed.mem_of_find? h

theorem entity?_eq_none_iff {m : Metamodel} {rule : String} :
    m.entity? rule = none ↔ rule ∉ m.names := by
  rw [entity?_eq_find?]
  exact Keyed.find?_eq_none_iff

theorem entity?_of_mem {m : Metamodel} {e : Entity} (h : e ∈ m.entities) :
    m.entity? e.name = some e := by
  rw [entity?_eq_find?]
  exact Keyed.find?_of_mem m.nodup_names h

end Metamodel

end SourceOutline
