import SourceOutline.Toml.Scalar

/-
  Reading TOML documents: lines with a header or a pair, comments after a hash sign, and a byte
  order mark in front that does not count. Lists may span lines, tables in braces may not.
-/

namespace SourceOutline.Toml.Parser

/-- How many lists and tables may stand in each other, and how many names in a dotted key. -/
def depthLimit : Nat := 79

/-! ## Blanks and line ends -/

def isSpace (c : Char) : Bool := c = ' ' || c = '\t'

def skipSpaces (cs : List Char) : List Char := cs.dropWhile isSpace

/-- A comment, if there is one, up to the end of its line. -/
def skipComment : List Char → List Char
  | '#' :: cs => cs.dropWhile Quoted.isPlain
  | cs => cs

/-- The end of a line, or of the text. -/
def lineEnd? : List Char → Option (List Char)
  | [] => some []
  | '\n' :: cs => some cs
  | '\r' :: '\n' :: cs => some cs
  | _ => none

/-- The rest of a line that holds nothing more. -/
def restOfLine? (cs : List Char) : Option (List Char) := lineEnd? (skipComment (skipSpaces cs))

/-- Blanks, newlines and comments inside a list. -/
def skipGaps? (comment : Bool) : List Char → Option (List Char)
  | [] => if comment then none else some []
  | '\n' :: cs => skipGaps? false cs
  | '\r' :: '\n' :: cs => skipGaps? false cs
  | c :: cs =>
    if comment then (if Quoted.isPlain c then skipGaps? true cs else none)
    else if c = '#' then skipGaps? true cs
    else if isSpace c then skipGaps? false cs
    else some (c :: cs)

/-! ## Keys -/

def isBareChar (c : Char) : Bool := c.isAlphanum || c = '-' || c = '_'

/-- One name: bare, or a string on one line. -/
def name? : List Char → Option (String × List Char)
  | '"' :: cs => (Quoted.basic? [] cs).map fun (t, rest) => (String.ofList t, rest)
  | '\'' :: cs => (Quoted.literal? [] cs).map fun (t, rest) => (String.ofList t, rest)
  | cs =>
    match cs.span isBareChar with
    | ([], _) => none
    | (name, rest) => some (String.ofList name, rest)

/-- Names with dots between them, blanks around. The fuel bounds the number of names. -/
def key? : Nat → List Char → Option (List String × List Char)
  | 0, _ => none
  | fuel + 1, cs => do
    let (name, cs) ← name? (skipSpaces cs)
    match skipSpaces cs with
    | '.' :: cs => do
      let (names, cs) ← key? fuel cs
      pure (name :: names, cs)
    | cs => pure ([name], cs)

/-! ## Values -/

mutual

/-- One value and what follows it. -/
def value? : (fuel depth : Nat) → List Char → Option (Toml × List Char)
  | 0, _, _ => none
  | fuel + 1, depth, cs =>
    match cs with
    | '[' :: cs =>
      match depth with
      | 0 => none
      | depth + 1 => items? fuel depth [] cs
    | '\x7b' :: cs =>
      match depth with
      | 0 => none
      | depth + 1 =>
        match skipSpaces cs with
        | '\x7d' :: cs => some (.table .braced [], cs)
        | cs => pairs? fuel depth [] cs
    | '"' :: _ => (Quoted.string? cs).map fun (s, rest) => (.string s, rest)
    | '\'' :: _ => (Quoted.string? cs).map fun (s, rest) => (.string s, rest)
    | _ => Scalar.read? cs

/-- The items of a list up to its bracket, the ones before them given in reverse. -/
def items? : (fuel depth : Nat) → List Toml → List Char → Option (Toml × List Char)
  | 0, _, _, _ => none
  | fuel + 1, depth, acc, cs =>
    match skipGaps? false cs with
    | none => none
    | some (']' :: cs) => some (.array acc.reverse, cs)
    | some cs =>
      match value? fuel depth cs with
      | none => none
      | some (v, cs) =>
        match skipGaps? false cs with
        | some (',' :: cs) => items? fuel depth (v :: acc) cs
        | some (']' :: cs) => some (.array (v :: acc).reverse, cs)
        | _ => none

/-- The pairs of a table up to its brace. -/
def pairs? : (fuel depth : Nat) → List (List String × Toml) → List Char → Option (Toml × List Char)
  | 0, _, _, _ => none
  | fuel + 1, depth, acc, cs =>
    match key? depthLimit cs with
    | some (path, '=' :: cs) =>
      match value? fuel depth (skipSpaces cs) with
      | none => none
      | some (v, cs) =>
        match skipSpaces cs with
        | ',' :: cs => pairs? fuel depth ((path, v) :: acc) cs
        | '\x7d' :: cs => (ofPairs? ((path, v) :: acc).reverse).map fun t => (t, cs)
        | _ => none
    | _ => none

end

/-! ## Statements -/

/-- A header after its opening bracket or brackets, up to the closing ones. -/
def headerPath? (closing cs : List Char) : Option (List String × List Char) := do
  let (path, cs) ← key? depthLimit cs
  if closing.isPrefixOf cs then
    pure (path, ← restOfLine? (cs.drop closing.length))
  else none

def statement? (fuel : Nat) : List Char → Option (Statement × List Char)
  | '[' :: '[' :: cs =>
    (headerPath? [']', ']'] cs).map fun (path, rest) => (.arrayHeader path, rest)
  | '[' :: cs => (headerPath? [']'] cs).map fun (path, rest) => (.header path, rest)
  | cs =>
    match key? depthLimit cs with
    | some (path, '=' :: cs) => do
      let (v, cs) ← value? fuel depthLimit (skipSpaces cs)
      pure (.pair path v, ← restOfLine? cs)
    | _ => none

/-- The statements of a text. Each of them, and each empty line, takes one unit of fuel. -/
def statements? : Nat → List Statement → List Char → Option (List Statement)
  | 0, _, _ => none
  | fuel + 1, acc, cs =>
    match skipSpaces cs with
    | [] => some acc.reverse
    | c :: cs =>
      if c = '#' ∨ c = '\n' ∨ c = '\r' then
        match lineEnd? (skipComment (c :: cs)) with
        | none => none
        | some cs => statements? fuel acc cs
      else
        match statement? fuel (c :: cs) with
        | none => none
        | some (s, cs) => statements? fuel (s :: acc) cs

end SourceOutline.Toml.Parser

namespace SourceOutline.Toml

/-- The table that a text holds, if it is TOML. Two units of fuel to a character are enough. -/
def parse? (text : String) : Option Entries :=
  let cs := match text.toList with
    | '\uFEFF' :: cs => cs
    | cs => cs
  (Parser.statements? (2 * cs.length + 2) [] cs).bind ofStatements?

end SourceOutline.Toml
