import SourceOutline.Keyed
import SourceOutline.NameSet

/-
  The slots of a grammar: for every rule, the names that its nodes answer to and how each is
  resolved. A name may be a stored field, a computed accessor, or both; the two are independent.

  A rule is in the table once it has a slot.
-/

namespace SourceOutline

/-- How one name is resolved on a node. -/
inductive Slot where
  /-- A grammar field; `tokens` if only anonymous tokens can stand in it. -/
  | field (multiple tokens : Bool)
  /-- The named children outside any field whose kind is one of `kinds`. -/
  | children (kinds : NameSet) (multiple : Bool)
  /-- The node's own text. -/
  | text
deriving DecidableEq

structure RuleSlots where
  rule : String
  fields : List (String × Slot) := []
  accessors : List (String × Slot) := []

structure SlotTable where
  rules : List RuleSlots

namespace SlotTable

instance : EmptyCollection SlotTable := ⟨⟨[]⟩⟩

/-- The slots of a rule, none of them if the rule is new. -/
def slotsOf (t : SlotTable) (rule : String) : RuleSlots :=
  (Keyed.find? RuleSlots.rule rule t.rules).getD { rule }

def insertField (t : SlotTable) (rule name : String) (slot : Slot) : SlotTable :=
  let slots := t.slotsOf rule
  ⟨Keyed.put RuleSlots.rule { slots with fields := Keyed.put Prod.fst (name, slot) slots.fields }
    t.rules⟩

def insertAccessor (t : SlotTable) (rule name : String) (slot : Slot) : SlotTable :=
  let slots := t.slotsOf rule
  ⟨Keyed.put RuleSlots.rule
    { slots with accessors := Keyed.put Prod.fst (name, slot) slots.accessors } t.rules⟩

def field? (t : SlotTable) (rule name : String) : Option Slot := do
  let slots ← Keyed.find? RuleSlots.rule rule t.rules
  let entry ← Keyed.find? Prod.fst name slots.fields
  pure entry.2

def accessor? (t : SlotTable) (rule name : String) : Option Slot := do
  let slots ← Keyed.find? RuleSlots.rule rule t.rules
  let entry ← Keyed.find? Prod.fst name slots.accessors
  pure entry.2

/-- The number of rules that have a slot. -/
def size (t : SlotTable) : Nat := t.rules.length

def isEmpty (t : SlotTable) : Bool := t.rules.isEmpty

end SlotTable

end SourceOutline
