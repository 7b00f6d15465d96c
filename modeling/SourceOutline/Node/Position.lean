import SourceOutline.Fault
import SourceOutline.Text.Split

/-
  Where a node starts and ends, from its first and last token. The end lies just past the last
  token, behind any newlines inside it. Words wrap around.

  An empty node without a last token ends where it starts, and its start column stands in for both
  the end line and the end column.
-/

namespace SourceOutline

/-! ## Where a token ends -/

namespace Token

/-- The line on which a token ends: its text covers as many lines as newlines cut it into. -/
def endLine (t : Token) : UInt64 :=
  t.line + (Text.splitList '\n' t.text.toList).length.toUInt64 - 1

/-- The column just past a token, counted from the last newline in it. -/
def endColumn (t : Token) : UInt64 :=
  if t.eof then t.column
  else
    match Text.rsplitList? '\n' t.text.toList with
    | none => t.column + t.text.toList.length.toUInt64
    | some (_, last) => last.length.toUInt64

end Token

/-! ## Where a node ends -/

/-- The end of a node: its last token, or the start column of an empty node without one. -/
inductive Stop where
  | token (t : Token)
  | empty (column : UInt64)

/-- The four position properties, which every node has. -/
inductive Position where
  | startLine
  | startColumn
  | endLine
  | endColumn
deriving DecidableEq

namespace Position

def name : Position → String
  | .startLine => "start_line"
  | .startColumn => "start_column"
  | .endLine => "end_line"
  | .endColumn => "end_column"

def ofName? : String → Option Position
  | "start_line" => some .startLine
  | "start_column" => some .startColumn
  | "end_line" => some .endLine
  | "end_column" => some .endColumn
  | _ => none

variable {ν : Type} [SyntaxNode ν]

open SyntaxNode

def startOf (n : ν) : Except Fault Token :=
  match first? n with
  | some t => .ok t
  | none => .error (.missingStart (rule n) (interval n))

def stopOf (n : ν) : Except Fault Stop :=
  match last? n, first? n with
  | some t, _ => .ok (.token t)
  | none, some t =>
    if text n = "" then .ok (.empty t.column)
    else .error (.missingStop (rule n) (interval n) (text n) (some t))
  | none, none => .error (.missingStop (rule n) (interval n) (text n) none)

/-- A position of a node. -/
def get (p : Position) (n : ν) : Except Fault UInt64 :=
  match p with
  | .startLine => (startOf n).map Token.line
  | .startColumn => (startOf n).map Token.column
  | .endLine => (stopOf n).map fun
    | .token t => t.endLine
    | .empty column => column
  | .endColumn => (stopOf n).map fun
    | .token t => t.endColumn
    | .empty column => column

/-- A word as a signed number: the upper half counts from below zero. -/
def signed (w : UInt64) : Int := w.toInt64.toInt

/-- The position property of a name; nothing if the name is none of the four. -/
def property? (n : ν) (name : String) : Except Fault (Option Value) :=
  match ofName? name with
  | some p => (get p n).map fun w => some (.int (signed w))
  | none => .ok none

end Position

end SourceOutline
