import SourceOutline.Metamodel.Entity
import SourceOutline.Node.Basic

/-
  Why a query on an element fails, and how that reads. Every cause but a missing token says that a
  metamodel and the nodes disagree.

  The lemmas take a computation that succeeds apart into its steps.
-/

namespace SourceOutline

inductive Fault where
  | unknownProperty (entity name : String)
  | unknownRelation (entity name : String)
  | unknownEntity (rule : String)
  /-- No accessor and no field of the name. -/
  | unresolvable (rule name : String) (interval : Interval)
  | cardinality (rule name : String) (interval : Interval) (declared requested : Multiplicity)
  | shapeMismatch (rule name : String) (interval : Interval) (expected found : Shape)
  | missingStop (rule : String) (interval : Interval) (text : String) (start : Option Token)
  | missingStart (rule : String) (interval : Interval)
deriving DecidableEq

def Fault.message : Fault → String
  | .unknownProperty entity name => s!"Entity {entity} declares no property named '{name}'"
  | .unknownRelation entity name => s!"Entity {entity} declares no relation named '{name}'"
  | .unknownEntity rule => s!"No entity registered for rule '{rule}'"
  | .unresolvable rule name interval =>
    s!"Rule {rule} ({interval.text}) has no accessor or field named '{name}'"
  | .cardinality rule name interval declared requested =>
    s!"'{name}' on rule {rule} ({interval.text}) is declared {declared.name} but was queried as " ++
      requested.name
  | .shapeMismatch rule name interval expected found =>
    s!"'{name}' on rule {rule} ({interval.text}) resolved to {found.name}, expected {expected.name}"
  | .missingStop rule interval text start =>
    let start := (start.map Token.label).getD "null"
    s!"The node has no stop token. Rule: {rule}. Source interval: {interval.text}. " ++
      s!"Text: '{text}'. Start token: {start}"
  | .missingStart rule interval =>
    s!"The node has no start token. Rule: {rule}. Source interval: {interval.text}"

/-! ## Computations that succeed -/

theorem exists_of_bind_eq_ok {ε α β : Type} {x : Except ε α} {f : α → Except ε β} {b : β}
    (h : x >>= f = .ok b) : ∃ a, x = .ok a ∧ f a = .ok b := by
  cases x with
  | error g => cases h
  | ok a => exact ⟨a, rfl, h⟩

theorem mem_of_mapM_eq_ok {ε α β : Type} {f : α → Except ε β} {l : List α} {bs : List β}
    (h : l.mapM f = .ok bs) {b : β} (hb : b ∈ bs) : ∃ a ∈ l, f a = .ok b := by
  induction l generalizing bs with
  | nil =>
    cases h
    simp at hb
  | cons a l ih =>
    rw [List.mapM_cons] at h
    obtain ⟨b', ha, h⟩ := exists_of_bind_eq_ok h
    obtain ⟨bs', hl, h⟩ := exists_of_bind_eq_ok h
    cases h
    rcases List.mem_cons.1 hb with rfl | hb
    · exact ⟨a, by simp, ha⟩
    · obtain ⟨c, hc, hcb⟩ := ih hl hb
      exact ⟨c, List.mem_cons_of_mem _ hc, hcb⟩

end SourceOutline
