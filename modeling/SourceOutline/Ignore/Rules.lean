import SourceOutline.Ignore.Glob.Match
import SourceOutline.Ignore.Glob.Parser
import SourceOutline.Text.Split

/-
  Rules on which files to pass over, one to a line. Of the rules that fit a path the last decides.
-/

namespace SourceOutline.Ignore

structure Rule where
  glob : Glob
  /-- Whether files that fit are kept, against rules before this one. -/
  keeps : Bool
  dirsOnly : Bool

inductive Verdict where
  | none
  | ignored
  | kept
deriving DecidableEq

namespace Rule

/-- Drops blanks at the end of a line, unless the last of them is escaped. -/
def trimLine (line : List Char) : List Char :=
  match line.reverse with
  | ' ' :: '\\' :: _ => line
  | _ => Text.dropTrailingBlanks line

/-- A slash at the end, which asks for directories, is taken off, and so is a backslash before
    it. -/
def dropEndSlash (cs : List Char) : List Char × Bool :=
  match cs.reverse with
  | '/' :: '\\' :: before => (before.reverse, true)
  | '/' :: before => (before.reverse, true)
  | _ => (cs, false)

/-- A pattern without slashes fits at any depth, and one that ends in two stars fits only what is
    inside the directory. -/
def globText (anchored : Bool) (cs : List Char) : List Char :=
  let dirs := ['*', '*', '/']
  let cs := if anchored ∨ '/' ∈ cs ∨ cs = ['*', '*'] then cs else dirs ++ cs
  if ['/', '*', '*'].isSuffixOf cs then cs ++ ['/', '*'] else cs

def ofPattern? (keeps anchored : Bool) (cs : List Char) : Option Rule :=
  let (cs, dirsOnly) := dropEndSlash cs
  (Glob.parse? (String.ofList (globText anchored cs))).map fun g => ⟨g, keeps, dirsOnly⟩

/-- The rule of a line: none if the line is empty or a comment, or its pattern cannot be read. -/
def ofLine? (line : String) : Option Rule :=
  match line.toList with
  | '#' :: _ => none
  | cs =>
    match trimLine cs with
    | [] => none
    | '\\' :: '!' :: cs => ofPattern? false false ('!' :: cs)
    | '\\' :: '#' :: cs => ofPattern? false false ('#' :: cs)
    | '!' :: '/' :: cs => ofPattern? true true cs
    | '!' :: cs => ofPattern? true false cs
    | '/' :: cs => ofPattern? false true cs
    | cs => ofPattern? false false cs

def fits (r : Rule) (path : String) (isDir : Bool) : Bool :=
  (isDir || !r.dirsOnly) && r.glob.fits path

end Rule

abbrev Rules := List Rule

namespace Rules

def ofLines (lines : List String) : Rules := lines.filterMap Rule.ofLine?

/-- The rules, if all of them can be used: one that is nested too deep spoils the others. -/
def usable (rules : Rules) : Rules :=
  if rules.all (·.glob.depth ≤ Glob.maxDepth) then rules else []

/-- The last rule that fits decides. -/
def verdict (rules : Rules) (path : String) (isDir : Bool) : Verdict :=
  match rules.reverse.find? (·.fits path isDir) with
  | none => .none
  | some r => if r.keeps then .kept else .ignored

/-! ## Rule files -/

/-- The lines of a file. The carriage return before a newline is not part of its line. -/
def rawLines (content : Bytes) : List Bytes :=
  let pieces := Text.splitList 0x0A content
  let ended := pieces.dropLast.map fun l => if l.getLast? = some 0x0D then l.dropLast else l
  ended ++ pieces.getLast?.toList.filter (· ≠ [])

/-- The lines before the first one that is no UTF-8 text. -/
def textLines : List Bytes → List String
  | [] => []
  | l :: ls =>
    match String.fromUTF8? ⟨l.toArray⟩ with
    | none => []
    | some s => s :: textLines ls

/-- The first line of a file, if there is one and it is text. -/
def firstLine? (content : ByteArray) : Option String :=
  (textLines ((rawLines content.toList).take 1)).head?

/-- Byte order marks in front of the first line do not count. -/
def dropMarks : List String → List String
  | [] => []
  | l :: ls => String.ofList (l.toList.dropWhile (·.toNat = 0xFEFF)) :: ls

def ofFile (content : ByteArray) : Rules :=
  ofLines (dropMarks (textLines (rawLines content.toList)))

end Rules

end SourceOutline.Ignore
