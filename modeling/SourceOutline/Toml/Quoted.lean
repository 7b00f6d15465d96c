import SourceOutline.Json.Parser

/-
  Strings in TOML: in double quotes with escapes or in single quotes as they are, each on one line,
  or with triple quotes on several.

  Reading takes what follows the opening quotes and gives the text with what follows the closing
  ones. Writing picks the first form that fits the text.
-/

namespace SourceOutline.Toml.Quoted

/-- Characters that may stand as they are: all but control characters, and the tab. -/
def isPlain (c : Char) : Bool := c = '\t' || (0x20 ≤ c.toNat && c.toNat ≠ 0x7F)

/-! ## Reading -/

def hexValue? (ds : List Char) : Option Nat :=
  ds.foldlM (fun n d => (Json.Parser.hexDigit? d).map fun v => n * 16 + v) 0

/-- The character of a code point given in hexadecimal. -/
def codePoint? (ds : List Char) : Option Char := do
  let n ← hexValue? ds
  if n.isValidChar then some (Char.ofNat n) else none

/-- The one-letter escapes. -/
def escaped? : Char → Option Char
  | 'b' => some '\x08'
  | 't' => some '\t'
  | 'n' => some '\n'
  | 'f' => some '\x0c'
  | 'r' => some '\r'
  | '"' => some '"'
  | '\\' => some '\\'
  | _ => none

/-- Double quotes, one line. -/
def basic? (acc : List Char) : List Char → Option (List Char × List Char)
  | [] => none
  | '"' :: cs => some (acc.reverse, cs)
  | '\\' :: 'u' :: a :: b :: c :: d :: cs =>
    match codePoint? [a, b, c, d] with
    | some x => basic? (x :: acc) cs
    | none => none
  | '\\' :: 'U' :: a :: b :: c :: d :: e :: f :: g :: h :: cs =>
    match codePoint? [a, b, c, d, e, f, g, h] with
    | some x => basic? (x :: acc) cs
    | none => none
  | '\\' :: e :: cs =>
    match escaped? e with
    | some x => basic? (x :: acc) cs
    | none => none
  | c :: cs => if isPlain c ∧ c ≠ '\\' then basic? (c :: acc) cs else none

/-- Single quotes, one line. -/
def literal? (acc : List Char) : List Char → Option (List Char × List Char)
  | [] => none
  | '\'' :: cs => some (acc.reverse, cs)
  | c :: cs => if isPlain c then literal? (c :: acc) cs else none

/-- Where a reader of several lines stands: in the text, after a backslash at the end of a line, or
    in the blanks that follow it. -/
inductive Place where
  | text
  | lineEnd
  | margin
deriving DecidableEq

/-- Triple double quotes. A backslash before the end of a line drops all blanks that follow. Up to
    two quotes may stand right before the closing ones. -/
def multiBasic? (place : Place) (acc : List Char) : List Char → Option (List Char × List Char)
  | [] => none
  | '\r' :: '\n' :: cs =>
    match place with
    | .text => multiBasic? .text ('\n' :: acc) cs
    | _ => multiBasic? .margin acc cs
  | '\n' :: cs =>
    match place with
    | .text => multiBasic? .text ('\n' :: acc) cs
    | _ => multiBasic? .margin acc cs
  | '\\' :: 'u' :: a :: b :: c :: d :: cs =>
    match codePoint? [a, b, c, d] with
    | some x => if place = .lineEnd then none else multiBasic? .text (x :: acc) cs
    | none => none
  | '\\' :: 'U' :: a :: b :: c :: d :: e :: f :: g :: h :: cs =>
    match codePoint? [a, b, c, d, e, f, g, h] with
    | some x => if place = .lineEnd then none else multiBasic? .text (x :: acc) cs
    | none => none
  | '\\' :: '\r' :: '\n' :: cs => if place = .lineEnd then none else multiBasic? .margin acc cs
  | '\\' :: e :: cs =>
    if place = .lineEnd then none
    else if e = '\n' then multiBasic? .margin acc cs
    else if e = ' ' ∨ e = '\t' then multiBasic? .lineEnd acc cs
    else
      match escaped? e with
      | some x => multiBasic? .text (x :: acc) cs
      | none => none
  | '"' :: '"' :: '"' :: '"' :: '"' :: cs =>
    if place = .lineEnd then none else some ((['"', '"'] ++ acc).reverse, cs)
  | '"' :: '"' :: '"' :: '"' :: cs =>
    if place = .lineEnd then none else some (('"' :: acc).reverse, cs)
  | '"' :: '"' :: '"' :: cs => if place = .lineEnd then none else some (acc.reverse, cs)
  | c :: cs =>
    if place ≠ .text ∧ (c = ' ' ∨ c = '\t') then multiBasic? place acc cs
    else if place = .lineEnd then none
    else if isPlain c ∧ c ≠ '\\' then multiBasic? .text (c :: acc) cs
    else none

/-- Triple single quotes. -/
def multiLiteral? (acc : List Char) : List Char → Option (List Char × List Char)
  | [] => none
  | '\r' :: '\n' :: cs => multiLiteral? ('\n' :: acc) cs
  | '\n' :: cs => multiLiteral? ('\n' :: acc) cs
  | '\'' :: '\'' :: '\'' :: '\'' :: '\'' :: cs => some ((['\'', '\''] ++ acc).reverse, cs)
  | '\'' :: '\'' :: '\'' :: '\'' :: cs => some (('\'' :: acc).reverse, cs)
  | '\'' :: '\'' :: '\'' :: cs => some (acc.reverse, cs)
  | c :: cs => if isPlain c then multiLiteral? (c :: acc) cs else none

/-- A newline right after opening triple quotes does not count. -/
def dropNewline : List Char → List Char
  | '\r' :: '\n' :: cs => cs
  | '\n' :: cs => cs
  | cs => cs

/-- A string in any form, from its opening quotes on. -/
def string? : List Char → Option (String × List Char)
  | '"' :: '"' :: '"' :: cs => asString (multiBasic? .text [] (dropNewline cs))
  | '"' :: cs => asString (basic? [] cs)
  | '\'' :: '\'' :: '\'' :: cs => asString (multiLiteral? [] (dropNewline cs))
  | '\'' :: cs => asString (literal? [] cs)
  | _ => none
where
  asString (r : Option (List Char × List Char)) : Option (String × List Char) :=
    r.map fun (text, rest) => (String.ofList text, rest)

/-! ### Plain characters

Every reader takes a plain character as it is, if it is no quote of its own. -/

theorem ne_newline_of_isPlain {c : Char} (h : isPlain c = true) : c ≠ '\n' := by
  rintro rfl
  simp [isPlain] at h

theorem ne_return_of_isPlain {c : Char} (h : isPlain c = true) : c ≠ '\r' := by
  rintro rfl
  simp [isPlain] at h

theorem basic?_plain {c : Char} (hplain : isPlain c = true) (hquote : c ≠ '"')
    (hslash : c ≠ '\\') (acc cs : List Char) : basic? acc (c :: cs) = basic? (c :: acc) cs := by
  rw [basic?]
  · rw [if_pos ⟨hplain, hslash⟩]
  all_goals simp_all

theorem literal?_plain {c : Char} (hplain : isPlain c = true) (hquote : c ≠ '\'')
    (acc cs : List Char) : literal? acc (c :: cs) = literal? (c :: acc) cs := by
  rw [literal?]
  · rw [if_pos hplain]
  all_goals simp_all

theorem multiBasic?_plain {c : Char} (hplain : isPlain c = true) (hquote : c ≠ '"')
    (hslash : c ≠ '\\') (acc cs : List Char) :
    multiBasic? .text acc (c :: cs) = multiBasic? .text (c :: acc) cs := by
  have hreturn := ne_return_of_isPlain hplain
  have hnewline := ne_newline_of_isPlain hplain
  rw [multiBasic?]
  · simp [hplain, hslash]
  all_goals simp_all

theorem multiLiteral?_char {c : Char} (hclean : (isPlain c || c = '\n') = true) (hquote : c ≠ '\'')
    (acc cs : List Char) : multiLiteral? acc (c :: cs) = multiLiteral? (c :: acc) cs := by
  by_cases hnewline : c = '\n'
  · subst hnewline
    rw [multiLiteral?]
  · have hplain : isPlain c = true := by simpa [hnewline] using hclean
    have hreturn := ne_return_of_isPlain hplain
    rw [multiLiteral?]
    · rw [if_pos hplain]
    all_goals simp_all

/-! ## Writing -/

inductive Form where
  | basic
  | literal
  | multiBasic
  | multiLiteral
deriving DecidableEq

/-- Whether more than two of a quote stand in a row. -/
def hasLongRun (q : Char) : List Char → Bool
  | a :: b :: c :: cs => (a = q && b = q && c = q) || hasLongRun q (b :: c :: cs)
  | _ => false

/-- Whether all characters could stand between triple quotes as they are. -/
def isClean (cs : List Char) : Bool := cs.all fun c => isPlain c || c = '\n'

/-- The first form that fits: plain double quotes, single quotes, triple double quotes, triple
    single quotes; else double quotes with escapes, triple if the text has several lines. -/
def formOf (cs : List Char) : Form :=
  let clean := isClean cs
  let oneLine := decide ('\n' ∉ cs)
  if clean && oneLine && '\\' ∉ cs && '"' ∉ cs then .basic
  else if clean && oneLine && '\'' ∉ cs then .literal
  else if clean && '\\' ∉ cs && !hasLongRun '"' cs then .multiBasic
  else if clean && !hasLongRun '\'' cs then .multiLiteral
  else if oneLine then .basic
  else .multiBasic

def upperHexDigit (n : Nat) : Char :=
  if n < 10 then Char.ofNat ('0'.toNat + n) else Char.ofNat ('A'.toNat + (n - 10))

/-- A character between double quotes, quotes and newlines apart. -/
def escapeChar (c : Char) : List Char :=
  if c = '\\' then ['\\', '\\']
  else if c = '\t' then ['\\', 't']
  else if c = '\x08' then ['\\', 'b']
  else if c = '\x0c' then ['\\', 'f']
  else if c = '\r' then ['\\', 'r']
  else if isPlain c then [c]
  else ['\\', 'u', '0', '0', upperHexDigit (c.toNat / 16), upperHexDigit (c.toNat % 16)]

def basicChar (c : Char) : List Char :=
  if c = '"' then ['\\', '"'] else if c = '\n' then ['\\', 'n'] else escapeChar c

/-- Text between triple double quotes, every third quote of a row escaped; `run` counts the quotes
    before it. -/
def multiBasicText (run : Nat) : List Char → List Char
  | [] => []
  | c :: cs =>
    if c = '"' then
      if run = 2 then '\\' :: '"' :: multiBasicText 0 cs else '"' :: multiBasicText (run + 1) cs
    else if c = '\n' then '\n' :: multiBasicText 0 cs
    else escapeChar c ++ multiBasicText 0 cs

/-- Text of several lines starts on a line of its own. -/
def lineBreak (cs : List Char) : List Char := if '\n' ∈ cs then ['\n'] else []

def writeChars (cs : List Char) : List Char :=
  match formOf cs with
  | .basic => '"' :: cs.flatMap basicChar ++ ['"']
  | .literal => '\'' :: cs ++ ['\'']
  | .multiBasic => ['"', '"', '"'] ++ lineBreak cs ++ multiBasicText 0 cs ++ ['"', '"', '"']
  | .multiLiteral => ['\'', '\'', '\''] ++ lineBreak cs ++ cs ++ ['\'', '\'', '\'']

def write (s : String) : String := String.ofList (writeChars s.toList)

end SourceOutline.Toml.Quoted
