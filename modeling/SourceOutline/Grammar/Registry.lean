import SourceOutline.Files.Path
import SourceOutline.Grammar.Derive
import SourceOutline.Text.Quoted

/-
  Grammars with what is derived from their node types, and the list of those in use. A file goes to
  the first grammar that has its extension; names are compared without regard to ASCII case.
-/

namespace SourceOutline

structure Grammar where
  name : String
  extensions : List String
  metamodel : Metamodel
  table : SlotTable

namespace Grammar

def ofTypes (name : String) (extensions : List String) (types : List NodeType) : Grammar :=
  let (metamodel, table) := derive types
  { name, extensions, metamodel, table }

def canHandle (g : Grammar) (path : String) : Bool :=
  (Path.extension? path).any fun ext => ext ∈ g.extensions

def describe (g : Grammar) : String :=
  let extensions := ", ".intercalate (g.extensions.map Text.quoted)
  s!"Grammar \x7b name: {Text.quoted g.name}, extensions: [{extensions}], " ++
    s!"entities: {g.metamodel.size} \x7d"

end Grammar

/-- Whether two texts differ in ASCII case at most. -/
def sameName (a b : String) : Bool := a.toList.map Char.toLower = b.toList.map Char.toLower

structure Registry where
  grammars : List Grammar

namespace Registry

instance : EmptyCollection Registry := ⟨⟨[]⟩⟩

def register (r : Registry) (g : Grammar) : Registry := ⟨r.grammars ++ [g]⟩

def findForPath? (r : Registry) (path : String) : Option Grammar :=
  r.grammars.find? (·.canHandle path)

def findByName? (r : Registry) (name : String) : Option Grammar :=
  r.grammars.find? (sameName ·.name name)

/-- Keeps the grammars that are named. -/
def retain (r : Registry) (names : List String) : Registry :=
  ⟨r.grammars.filter fun g => names.any (sameName g.name)⟩

end Registry

/-! ## The built-in grammars -/

/-- The languages that come with the program. -/
inductive Language where
  | python
  | javascript
  | rust
  | go
deriving DecidableEq

namespace Language

def all : List Language := [.python, .javascript, .rust, .go]

def name : Language → String
  | .python => "Python"
  | .javascript => "JavaScript"
  | .rust => "Rust"
  | .go => "Go"

def extensions : Language → List String
  | .python => ["py", "pyi"]
  | .javascript => ["js", "jsx", "mjs", "cjs"]
  | .rust => ["rs"]
  | .go => ["go"]

/-- The name in small letters, as settings write it. -/
def key (l : Language) : String := String.ofList (l.name.toList.map Char.toLower)

end Language

/-- The built-in grammars over the node types of their languages. -/
def Registry.builtin (types : Language → List NodeType) : Registry :=
  ⟨Language.all.map fun l => .ofTypes l.name l.extensions (types l)⟩

end SourceOutline
