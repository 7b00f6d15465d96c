import SourceOutline.Display.Style

/-
  The lines that tell what the program is doing, each with a sign in front. In quiet mode those that
  only report progress are left out.
-/

namespace SourceOutline

/-- A piece of output, for one of the two streams. -/
inductive Printed where
  | out (text : String)
  | err (text : String)
deriving DecidableEq

def Printed.line (text : String) : Printed := .out (text ++ "\n")

/-- How messages look. -/
structure Display where
  theme : Theme
  quiet : Bool

namespace Display

/-- Whether the value of the variable for it asks for quiet. -/
def wantsQuiet (v : Option String) : Bool :=
  v.any fun s => s = "1" ∨ s.toList.map Char.toLower = "true".toList

/-- Lines that quiet mode leaves out. -/
def progress (d : Display) (lines : List String) : List Printed :=
  if d.quiet then [] else lines.map Printed.line

def styled (d : Display) (role : Role) (text : String) : String := (d.theme role).apply text

def header (d : Display) (text : String) : List Printed :=
  d.progress ["🌳 " ++ d.styled .header text]

def success (d : Display) (text : String) : List Printed :=
  d.progress ["✅ " ++ d.styled .success text]

def file (d : Display) (path detail : String) : List Printed :=
  d.progress ["📄 " ++ path ++ " " ++ d.styled .dim detail]

def sectionTitle (d : Display) (title : String) : List Printed :=
  d.progress ["", "📊 " ++ d.styled .header title]

def error (d : Display) (text : String) : List Printed :=
  [.err ("❌ " ++ d.styled .error text ++ "\n")]

def warning (d : Display) (text : String) : List Printed :=
  [.err ("⚠️ " ++ d.styled .warn text ++ "\n")]

end Display

end SourceOutline
