import SourceOutline.Json.Basic

/-
  Reading JSON text. Strict: no comments or trailing commas, no raw control character in a string,
  no leading zero, nothing but blanks around the value.
-/

namespace SourceOutline.Json.Parser

def isBlank (c : Char) : Bool := c = ' ' || c = '\n' || c = '\t' || c = '\r'

def skipBlanks (cs : List Char) : List Char := cs.dropWhile isBlank

/-! ## Strings -/

/-- What one character or escape of a string stands for. -/
inductive Piece where
  | char (c : Char)
  | surrogate (unit : Nat)

def hexDigit? (c : Char) : Option Nat :=
  if '0' ≤ c ∧ c ≤ '9' then some (c.toNat - '0'.toNat)
  else if 'a' ≤ c ∧ c ≤ 'f' then some (c.toNat - 'a'.toNat + 10)
  else if 'A' ≤ c ∧ c ≤ 'F' then some (c.toNat - 'A'.toNat + 10)
  else none

def hex4? (a b c d : Char) : Option Nat := do
  let a ← hexDigit? a
  let b ← hexDigit? b
  let c ← hexDigit? c
  let d ← hexDigit? d
  pure (((a * 16 + b) * 16 + c) * 16 + d)

def pieceOfUnit (n : Nat) : Piece :=
  if 0xD800 ≤ n ∧ n ≤ 0xDFFF then .surrogate n else .char (Char.ofNat n)

/-- The one-letter escapes. -/
def escaped? : Char → Option Char
  | '"' => some '"'
  | '\\' => some '\\'
  | '/' => some '/'
  | 'b' => some '\x08'
  | 'f' => some '\x0c'
  | 'n' => some '\n'
  | 'r' => some '\r'
  | 't' => some '\t'
  | _ => none

/-- The rest of a string after its opening quote, with what follows the closing one. -/
def pieces? (acc : List Piece) : List Char → Option (List Piece × List Char)
  | [] => none
  | '"' :: cs => some (acc.reverse, cs)
  | '\\' :: 'u' :: a :: b :: c :: d :: cs =>
    match hex4? a b c d with
    | some n => pieces? (pieceOfUnit n :: acc) cs
    | none => none
  | '\\' :: e :: cs =>
    match escaped? e with
    | some c => pieces? (.char c :: acc) cs
    | none => none
  | c :: cs => if c.toNat < 0x20 ∨ c = '\\' then none else pieces? (.char c :: acc) cs

/-- Joins each high surrogate with the low one after it; `none` if half of a pair is left. -/
def joinPieces (acc : List Char) : List Piece → Option (List Char)
  | [] => some acc.reverse
  | .char c :: ps => joinPieces (c :: acc) ps
  | .surrogate high :: .surrogate low :: ps =>
    if high < 0xDC00 ∧ 0xDC00 ≤ low then
      joinPieces (Char.ofNat (0x10000 + (high - 0xD800) * 0x400 + (low - 0xDC00)) :: acc) ps
    else none
  | .surrogate _ :: _ => none

/-- A string after its opening quote: its text, or `none` inside if it names no characters. -/
def string? (cs : List Char) : Option (Option String × List Char) :=
  (pieces? [] cs).map fun (ps, rest) => ((joinPieces [] ps).map String.ofList, rest)

/-! ## Numbers -/

def natOfDigits (ds : List Char) : Nat :=
  ds.foldl (fun n d => n * 10 + (d.toNat - '0'.toNat)) 0

def digits? (cs : List Char) : Option (List Char × List Char) :=
  match cs.span Char.isDigit with
  | ([], _) => none
  | r => some r

/-- A fraction, if there is one: its text and what follows. -/
def fraction? : List Char → Option (List Char × List Char)
  | '.' :: cs => (digits? cs).map fun (ds, rest) => ('.' :: ds, rest)
  | cs => some ([], cs)

def exponent? : List Char → Option (List Char × List Char)
  | [] => some ([], [])
  | e :: cs =>
    if e = 'e' ∨ e = 'E' then
      match cs with
      | '+' :: cs => (digits? cs).map fun (ds, rest) => (e :: '+' :: ds, rest)
      | '-' :: cs => (digits? cs).map fun (ds, rest) => (e :: '-' :: ds, rest)
      | cs => (digits? cs).map fun (ds, rest) => (e :: ds, rest)
    else some ([], e :: cs)

def unsigned? (negative : Bool) (cs : List Char) : Option (Json × List Char) := do
  let (whole, cs) ← digits? cs
  if whole.length > 1 ∧ whole.head? = some '0' then none
  let (frac, cs) ← fraction? cs
  let (exp, cs) ← exponent? cs
  let n := natOfDigits whole
  if frac = [] ∧ exp = [] ∧ ¬ (negative = true ∧ n = 0) then
    pure (.int (if negative then -(n : Int) else n), cs)
  else
    let digits := String.ofList (whole ++ frac ++ exp)
    pure (.real (if negative then "-" ++ digits else digits), cs)

def number? : List Char → Option (Json × List Char)
  | '-' :: cs => unsigned? true cs
  | cs => unsigned? false cs

/-! ## Values -/

mutual

/-- One value and what follows it. The fuel bounds the nesting and the items of lists. -/
def value? : Nat → List Char → Option (Json × List Char)
  | 0, _ => none
  | fuel + 1, cs =>
    match skipBlanks cs with
    | 'n' :: 'u' :: 'l' :: 'l' :: cs => some (.null, cs)
    | 't' :: 'r' :: 'u' :: 'e' :: cs => some (.bool true, cs)
    | 'f' :: 'a' :: 'l' :: 's' :: 'e' :: cs => some (.bool false, cs)
    | '"' :: cs => (string? cs).map fun (s, rest) => (s.elim .garbled .string, rest)
    | '[' :: cs =>
      match skipBlanks cs with
      | ']' :: cs => some (.array [], cs)
      | cs => items? fuel [] cs
    | '\x7b' :: cs =>
      match skipBlanks cs with
      | '\x7d' :: cs => some (.object [], cs)
      | cs => members? fuel [] true cs
    | cs => number? cs

/-- The items of a list up to its bracket, the ones before them given in reverse. -/
def items? : Nat → List Json → List Char → Option (Json × List Char)
  | 0, _, _ => none
  | fuel + 1, acc, cs =>
    match value? fuel cs with
    | none => none
    | some (v, cs) =>
      match skipBlanks cs with
      | ',' :: cs => items? fuel (v :: acc) cs
      | ']' :: cs => some (.array (v :: acc).reverse, cs)
      | _ => none

/-- The members of an object up to its brace; `clean` as long as every key could be read. -/
def members? : Nat → List (String × Json) → Bool → List Char → Option (Json × List Char)
  | 0, _, _, _ => none
  | fuel + 1, acc, clean, cs =>
    match skipBlanks cs with
    | '"' :: cs =>
      match string? cs with
      | none => none
      | some (key, cs) =>
        match skipBlanks cs with
        | ':' :: cs =>
          match value? fuel cs with
          | none => none
          | some (v, cs) =>
            let acc := (key.getD "", v) :: acc
            let clean := clean && key.isSome
            match skipBlanks cs with
            | ',' :: cs => members? fuel acc clean cs
            | '\x7d' :: cs => some (if clean then .object acc.reverse else .garbled, cs)
            | _ => none
        | _ => none
    | _ => none

end

end SourceOutline.Json.Parser

namespace SourceOutline.Json

/-- The value that a text holds, if it is JSON. Two units of fuel to a character are enough: every
    second step consumes one. -/
def parse? (text : String) : Option Json :=
  let cs := text.toList
  match Parser.value? (2 * cs.length + 2) cs with
  | some (v, rest) => if Parser.skipBlanks rest = [] then some v else none
  | none => none

end SourceOutline.Json
