import SourceOutline.Proofs.Grammar.EntryOrder

/-
  A slot table is two maps, one for fields and one for accessors, each from a rule and a name to
  the slot that was inserted last (`ofInserts_keeps`).

  The table holds them together, rule by rule, and makes a rule when its first slot comes. What one
  insertion does to a look-up does not show this (`slot?_insert`): it is seen under its own sort,
  rule and name, and nowhere else. So after any number of insertions the last one under a key counts
  (`slot?_ofInserts`). A rule is counted once, whichever of its slots came first.
-/

namespace SourceOutline

inductive SlotSort where
  | field
  | accessor
deriving DecidableEq

/-- One insertion into a slot table. -/
structure SlotInsert where
  sort : SlotSort
  rule : String
  name : String
  slot : Slot

/-- The insertion is of this sort, and for this name of this rule. -/
def SlotInsert.IsUnder (sort : SlotSort) (rule name : String) (i : SlotInsert) : Prop :=
  i.sort = sort ∧ i.rule = rule ∧ i.name = name

instance (sort : SlotSort) (rule name : String) :
    DecidablePred (SlotInsert.IsUnder sort rule name) :=
  fun _ => inferInstanceAs (Decidable (_ ∧ _ ∧ _))

namespace SlotTable

open SlotInsert (IsUnder)

def slot? (t : SlotTable) : SlotSort → (rule name : String) → Option Slot
  | .field => t.field?
  | .accessor => t.accessor?

def insert (t : SlotTable) (i : SlotInsert) : SlotTable :=
  match i.sort with
  | .field => t.insertField i.rule i.name i.slot
  | .accessor => t.insertAccessor i.rule i.name i.slot

/-- The table after some insertions, in this order. -/
def ofInserts (l : List SlotInsert) : SlotTable := l.foldl insert ∅

/-- Of the insertions under a key, the last one brings the slot. -/
def LastUnder (l : List SlotInsert) (sort : SlotSort) (rule name : String) (slot : Slot) : Prop :=
  ∃ before i after, l = before ++ i :: after ∧ (IsUnder sort rule name i ∧ i.slot = slot) ∧
    ∀ later ∈ after, ¬ IsUnder sort rule name later

/-- The table is what the insertions `l`, in this order, amount to. -/
structure Keeps (l : List SlotInsert) (t : SlotTable) : Prop where
  found : ∀ sort rule name slot,
    t.slot? sort rule name = some slot ↔ LastUnder l sort rule name slot
  missing : ∀ sort rule name, t.slot? sort rule name = none ↔ ∀ i ∈ l, ¬ IsUnder sort rule name i
  /-- Every rule counts once, whatever was inserted for it. -/
  size : t.size = (l.map SlotInsert.rule).toFinset.card

/-! ## One insertion -/

theorem slot?_insert (t : SlotTable) (i : SlotInsert) (sort : SlotSort) (rule name : String) :
    (t.insert i).slot? sort rule name =
      if IsUnder sort rule name i then some i.slot else t.slot? sort rule name := by
  obtain ⟨own, rule', name', slot⟩ := i
  cases own with
  | field =>
    cases sort with
    | field =>
      show (t.insertField rule' name' slot).field? rule name = _
      rw [field?_insertField]
      simp [IsUnder, slot?]
    | accessor =>
      show (t.insertField rule' name' slot).accessor? rule name = _
      rw [accessor?_insertField, if_neg (by simp [IsUnder])]
      rfl
  | accessor =>
    cases sort with
    | field =>
      show (t.insertAccessor rule' name' slot).field? rule name = _
      rw [field?_insertAccessor, if_neg (by simp [IsUnder])]
      rfl
    | accessor =>
      show (t.insertAccessor rule' name' slot).accessor? rule name = _
      rw [accessor?_insertAccessor]
      simp [IsUnder, slot?]

theorem Tidy.insert {t : SlotTable} (h : t.Tidy) (i : SlotInsert) : (t.insert i).Tidy := by
  unfold SlotTable.insert
  split
  · exact h.insertField i.rule i.name i.slot
  · exact h.insertAccessor i.rule i.name i.slot

/-! ## Any number of insertions -/

theorem ofInserts_concat (l : List SlotInsert) (i : SlotInsert) :
    ofInserts (l ++ [i]) = (ofInserts l).insert i := by
  unfold ofInserts
  rw [List.foldl_concat]

theorem slot?_ofInserts (l : List SlotInsert) (sort : SlotSort) (rule name : String) :
    (ofInserts l).slot? sort rule name =
      Grammar.lastSome (fun i => if IsUnder sort rule name i then some i.slot else none) l := by
  induction l using List.reverseRecOn with
  | nil => cases sort <;> rfl
  | append_singleton l i ih =>
    rw [ofInserts_concat, slot?_insert, Grammar.lastSome_concat, ih]
    split <;> rfl

theorem slot?_ofInserts_eq_some_iff {l : List SlotInsert} {sort : SlotSort} {rule name : String}
    {slot : Slot} :
    (ofInserts l).slot? sort rule name = some slot ↔ LastUnder l sort rule name slot := by
  rw [slot?_ofInserts, Grammar.lastSome_eq_some_iff]
  simp only [ite_eq_right_iff, reduceCtorEq, imp_false, Option.ite_none_right_eq_some,
    Option.some.injEq]
  rfl

theorem slot?_ofInserts_eq_none_iff {l : List SlotInsert} {sort : SlotSort} {rule name : String} :
    (ofInserts l).slot? sort rule name = none ↔ ∀ i ∈ l, ¬ IsUnder sort rule name i := by
  rw [slot?_ofInserts, Grammar.lastSome_eq_none_iff]
  simp only [ite_eq_right_iff, reduceCtorEq, imp_false]

/-- The insertions under one key are all that a look-up of it depends on. -/
theorem slot?_ofInserts_filter (l : List SlotInsert) (sort : SlotSort) (rule name : String) :
    (ofInserts (l.filter (IsUnder sort rule name))).slot? sort rule name =
      (ofInserts l).slot? sort rule name := by
  induction l using List.reverseRecOn with
  | nil => rfl
  | append_singleton l i ih =>
    rw [ofInserts_concat, slot?_insert, List.filter_append]
    by_cases h : IsUnder sort rule name i
    · have hkept : [i].filter (IsUnder sort rule name) = [i] := by simp [h]
      rw [hkept, ofInserts_concat, slot?_insert, if_pos h, if_pos h]
    · have hleft : [i].filter (IsUnder sort rule name) = [] := by simp [h]
      rw [hleft, List.append_nil, ih, if_neg h]

theorem tidy_ofInserts (l : List SlotInsert) : (ofInserts l).Tidy :=
  List.foldlRecOn _ _ tidy_empty fun _ ht i _ => ht.insert i

theorem Tidy.mem_rules_iff_slot? {t : SlotTable} (h : t.Tidy) {rule : String} :
    rule ∈ t.rules.map RuleSlots.rule ↔ ∃ sort name, t.slot? sort rule name ≠ none := by
  rw [h.mem_rules_iff]
  constructor
  · rintro ⟨name, hfield | haccessor⟩
    · exact ⟨.field, name, hfield⟩
    · exact ⟨.accessor, name, haccessor⟩
  · rintro ⟨sort, name, hslot⟩
    cases sort with
    | field => exact ⟨name, .inl hslot⟩
    | accessor => exact ⟨name, .inr hslot⟩

theorem mem_rules_ofInserts {l : List SlotInsert} {rule : String} :
    rule ∈ (ofInserts l).rules.map RuleSlots.rule ↔ rule ∈ l.map SlotInsert.rule := by
  rw [(tidy_ofInserts l).mem_rules_iff_slot?, List.mem_map]
  constructor
  · rintro ⟨sort, name, hslot⟩
    rw [Ne, slot?_ofInserts_eq_none_iff] at hslot
    push Not at hslot
    obtain ⟨i, hi, -, hrule, -⟩ := hslot
    exact ⟨i, hi, hrule⟩
  · rintro ⟨i, hi, rfl⟩
    refine ⟨i.sort, i.name, fun hnone => ?_⟩
    exact slot?_ofInserts_eq_none_iff.1 hnone i hi ⟨rfl, rfl, rfl⟩

theorem size_ofInserts (l : List SlotInsert) :
    (ofInserts l).size = (l.map SlotInsert.rule).toFinset.card := by
  have hset : ((ofInserts l).rules.map RuleSlots.rule).toFinset =
      (l.map SlotInsert.rule).toFinset := by
    ext rule
    rw [List.mem_toFinset, List.mem_toFinset, mem_rules_ofInserts]
  rw [← hset, List.toFinset_card_of_nodup (tidy_ofInserts l).distinct, List.length_map, size]

/-- After any sequence of insertions a look-up gives the slot that came last under its sort, rule
    and name, or nothing if none did; all other insertions could as well be left out. The rules
    are as many as were inserted for, as fields or as accessors. -/
theorem ofInserts_keeps (l : List SlotInsert) :
    Keeps l (ofInserts l) ∧ ∀ sort rule name,
      (ofInserts l).slot? sort rule name =
        (ofInserts (l.filter (IsUnder sort rule name))).slot? sort rule name := by
  refine ⟨⟨?_, ?_, size_ofInserts l⟩, ?_⟩
  · exact fun _ _ _ _ => slot?_ofInserts_eq_some_iff
  · exact fun _ _ _ => slot?_ofInserts_eq_none_iff
  · exact fun sort rule name => (slot?_ofInserts_filter l sort rule name).symm

/-- One rule and name as a field, as an accessor, and as a field once more. -/
example :
    let t := ofInserts [⟨.field, "p", "x", .text⟩, ⟨.accessor, "p", "x", .field true false⟩,
      ⟨.accessor, "q", "x", .text⟩, ⟨.field, "p", "x", .field false true⟩]
    t.field? "p" "x" = some (.field false true) ∧ t.accessor? "p" "x" = some (.field true false) ∧
      t.field? "q" "x" = none ∧ t.size = 2 := by
  decide

end SlotTable

end SourceOutline
