/-
  Sets of characters given as ranges of code points.
-/

namespace SourceOutline.Text

/-- Ranges of code points, both ends included, in increasing order. -/
abbrev CharTable := List (Nat × Nat)

def CharTable.contains (t : CharTable) (c : Char) : Bool :=
  t.any fun r => r.1 ≤ c.toNat && c.toNat ≤ r.2

end SourceOutline.Text
