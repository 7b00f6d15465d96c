/-
  Colours for terminals. A styled text stands between a sequence that turns its attributes on, the
  colour before bold, and one that turns them off; a style without attributes leaves it alone.
-/

namespace SourceOutline

inductive Color where
  | red
  | green
  | yellow
  | blue
  | magenta
  | cyan
  | brightBlack
deriving DecidableEq

def Color.code : Color → Nat
  | .red => 31
  | .green => 32
  | .yellow => 33
  | .blue => 34
  | .magenta => 35
  | .cyan => 36
  | .brightBlack => 90

structure Style where
  color : Option Color := none
  bold : Bool := false

namespace Style

def codes (s : Style) : List String :=
  (s.color.map fun c => toString c.code).toList ++ if s.bold then ["1"] else []

def apply (s : Style) (text : String) : String :=
  match s.codes with
  | [] => text
  | codes => "\x1b[" ++ ";".intercalate codes ++ "m" ++ text ++ "\x1b[0m"

end Style

/-- What a piece of output is, which decides its style. -/
inductive Role where
  | header
  | success
  | error
  | warn
  | dim
  | entity
  | property
  | relation
deriving DecidableEq

abbrev Theme := Role → Style

namespace Theme

def colored : Theme
  | .header => ⟨some .cyan, true⟩
  | .success => ⟨some .green, true⟩
  | .error => ⟨some .red, true⟩
  | .warn => ⟨some .yellow, true⟩
  | .dim => ⟨some .brightBlack, false⟩
  | .entity => ⟨some .cyan, false⟩
  | .property => ⟨some .magenta, false⟩
  | .relation => ⟨some .blue, false⟩

def plain : Theme := fun _ => {}

/-- Colours for a terminal only. -/
def detect (terminal : Bool) : Theme := if terminal then colored else plain

end Theme

end SourceOutline
