import SourceOutline.Toml.Quoted
import SourceOutline.Toml.Value

/-
  TOML values that are words: numbers, truth values, dates and times. A word is read as a whole, so
  what it means does not depend on what could be read from its beginning.
-/

namespace SourceOutline.Toml.Scalar

/-! ## Digits -/

/-- Digits with single underscores between them, without the underscores. -/
def ungroup? (isDigit : Char → Bool) : List Char → Option (List Char)
  | [] => none
  | [c] => if isDigit c then some [c] else none
  | c :: '_' :: cs => if isDigit c then (ungroup? isDigit cs).map (c :: ·) else none
  | c :: cs => if isDigit c then (ungroup? isDigit cs).map (c :: ·) else none

def valueOf (base : Nat) (ds : List Char) : Nat :=
  ds.foldl (fun n d => n * base + (Json.Parser.hexDigit? d).getD 0) 0

/-- A whole number without a leading zero, as its digits. -/
def whole? (cs : List Char) : Option (List Char) :=
  match ungroup? Char.isDigit cs with
  | some ('0' :: _ :: _) => none
  | r => r

/-! ## Numbers -/

/-- Whether a number has a place in 64 bits with a sign. -/
def fits (n : Int) : Bool := -9223372036854775808 ≤ n && n < 9223372036854775808

def signed? (negative : Bool) (n : Nat) : Option Toml :=
  let n : Int := if negative then -(n : Int) else n
  if fits n then some (.integer n) else none

def isHexDigit (c : Char) : Bool := (Json.Parser.hexDigit? c).isSome

def integer? : List Char → Option Toml
  | '0' :: 'x' :: cs => (ungroup? isHexDigit cs).bind fun ds => signed? false (valueOf 16 ds)
  | '0' :: 'o' :: cs =>
    (ungroup? (fun c => '0' ≤ c && c ≤ '7') cs).bind fun ds => signed? false (valueOf 8 ds)
  | '0' :: 'b' :: cs =>
    (ungroup? (fun c => c = '0' || c = '1') cs).bind fun ds => signed? false (valueOf 2 ds)
  | '+' :: cs => (whole? cs).bind fun ds => signed? false (valueOf 10 ds)
  | '-' :: cs => (whole? cs).bind fun ds => signed? true (valueOf 10 ds)
  | cs => (whole? cs).bind fun ds => signed? false (valueOf 10 ds)

/-- An exponent after its letter, as a number. -/
def exponent? : List Char → Option Int
  | '+' :: cs => (ungroup? Char.isDigit cs).map fun ds => (valueOf 10 ds : Int)
  | '-' :: cs => (ungroup? Char.isDigit cs).map fun ds => -(valueOf 10 ds : Int)
  | cs => (ungroup? Char.isDigit cs).map fun ds => (valueOf 10 ds : Int)

/-- The least number that rounds to infinity in binary floating point of 64 bits. -/
def overflow : Nat := Nat.pow 2 1024 - Nat.pow 2 970

/-- Whether digits, with a point after the first `point` of them, are too large for a float. -/
def isTooLarge (digits : List Char) (point : Int) : Bool :=
  let significant := digits.dropWhile (· = '0')
  let point := point - (digits.length - significant.length : Nat)
  if significant.isEmpty || point < 309 then false
  else if 309 < point then true
  else overflow ≤ valueOf 10 ((significant ++ List.replicate 309 '0').take 309)

def unsignedFloat? (negative : Bool) (text cs : List Char) : Option Toml := do
  let (whole, rest) := cs.span fun c => c.isDigit || c = '_'
  let whole ← whole? whole
  let (frac, exp) ← match rest with
    | '.' :: rest => do
      let (frac, rest) := rest.span fun c => c.isDigit || c = '_'
      let frac ← ungroup? Char.isDigit frac
      match rest with
      | [] => pure (frac, 0)
      | e :: rest => if e = 'e' ∨ e = 'E' then pure (frac, ← exponent? rest) else none
    | e :: rest => if e = 'e' ∨ e = 'E' then pure ([], ← exponent? rest) else none
    | [] => none
  if !negative && isTooLarge (whole ++ frac) (whole.length + exp) then none
  else some (.float (String.ofList text))

def float? (cs : List Char) : Option Toml :=
  match cs with
  | '+' :: rest => if isSpecial rest then some (.float (String.ofList cs)) else
      unsignedFloat? false cs rest
  | '-' :: rest => if isSpecial rest then some (.float (String.ofList cs)) else
      unsignedFloat? true cs rest
  | rest => if isSpecial rest then some (.float (String.ofList cs)) else
      unsignedFloat? false cs rest
where
  isSpecial (cs : List Char) : Bool := cs = ['i', 'n', 'f'] || cs = ['n', 'a', 'n']

/-! ## Dates and times -/

/-- A number of exactly so many digits. -/
def digits? (ds : List Char) : Option Nat :=
  if ds.all Char.isDigit then some (valueOf 10 ds) else none

def isLeap (year : Nat) : Bool := year % 4 = 0 && (year % 100 ≠ 0 || year % 400 = 0)

def daysIn (year month : Nat) : Nat :=
  if month = 2 then (if isLeap year then 29 else 28)
  else if month ∈ [4, 6, 9, 11] then 30
  else 31

/-- A date at the start of a word, with what follows it. -/
def date? : List Char → Option (List Char)
  | y1 :: y2 :: y3 :: y4 :: '-' :: m1 :: m2 :: '-' :: d1 :: d2 :: rest => do
    let year ← digits? [y1, y2, y3, y4]
    let month ← digits? [m1, m2]
    let day ← digits? [d1, d2]
    if 1 ≤ month ∧ month ≤ 12 ∧ 1 ≤ day ∧ day ≤ daysIn year month then some rest else none
  | _ => none

/-- A time of day at the start of a word, with what follows it. -/
def time? : List Char → Option (List Char)
  | h1 :: h2 :: ':' :: m1 :: m2 :: ':' :: s1 :: s2 :: rest => do
    let hour ← digits? [h1, h2]
    let minute ← digits? [m1, m2]
    let second ← digits? [s1, s2]
    if 24 ≤ hour ∨ 60 ≤ minute ∨ 61 ≤ second then none
    match rest with
    | '.' :: rest =>
      match rest.span Char.isDigit with
      | ([], _) => none
      | (_, rest) => some rest
    | rest => some rest
  | _ => none

/-- Whether a word is an offset from universal time, or empty. -/
def isOffset : List Char → Bool
  | [] => true
  | ['Z'] => true
  | ['z'] => true
  | [sign, h1, h2, ':', m1, m2] =>
    (sign = '+' || sign = '-') && (digits? [h1, h2]).any (· < 24) && (digits? [m1, m2]).any (· < 60)
  | _ => false

/-- Whether a word is a time of day with an offset, if any. -/
def isTimeWithOffset (cs : List Char) : Bool := (time? cs).any isOffset

def isMoment (cs : List Char) : Bool :=
  match date? cs with
  | some [] => true
  | some (t :: rest) => (t = 'T' || t = 't') && isTimeWithOffset rest
  | none => time? cs = some []

/-! ## Words -/

def isWordChar (c : Char) : Bool :=
  c.isAlphanum || c = '+' || c = '-' || c = '_' || c = '.' || c = ':'

def word? (w : List Char) : Option Toml :=
  if w = ['t', 'r', 'u', 'e'] then some (.boolean true)
  else if w = ['f', 'a', 'l', 's', 'e'] then some (.boolean false)
  else if isMoment w then some (.moment (String.ofList w))
  else (float? w).or (integer? w)

/-- Whether a time of day follows after a space. -/
def startsTime : List Char → Bool
  | ' ' :: a :: b :: ':' :: _ => a.isDigit && b.isDigit
  | _ => false

/-- The word at the start of a text; a date and a time may have a space between them. -/
def read? (cs : List Char) : Option (Toml × List Char) :=
  let (w, rest) := cs.span isWordChar
  if date? w = some [] ∧ startsTime rest then
    let (t, rest) := (rest.drop 1).span isWordChar
    if isTimeWithOffset t then some (.moment (String.ofList (w ++ ' ' :: t)), rest) else none
  else (word? w).map fun v => (v, rest)

end SourceOutline.Toml.Scalar
