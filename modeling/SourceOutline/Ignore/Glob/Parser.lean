import SourceOutline.Ignore.Glob.Basic

/-
  Reading patterns.
-/

namespace SourceOutline.Ignore.Glob

/-- A brace that is still open: what stands before it, and its finished branches, both in
    reverse. -/
structure Frame where
  before : List Token
  done : List (List Token)

/-- What has been read: the tokens of the pattern or branch at hand in reverse, and the open braces
    around them. -/
structure Reading where
  tokens : List Token
  frames : List Frame
  /-- Whether a bracket opens a class; no longer after one that is not closed. -/
  hasClasses : Bool

namespace Reading

def start : Reading := ⟨[], [], true⟩

def push (r : Reading) (t : Token) : Reading := { r with tokens := t :: r.tokens }

/-- Two stars that do not stand for directories are two tokens. -/
def pushStars (r : Reading) : Reading := (r.push .star).push .star

/-- A bracket that opens no class is itself, and so are those after it. -/
def pushBracket (r : Reading) : Reading := { r.push (.char '[') with hasClasses := false }

def openBrace (r : Reading) : Reading :=
  { r with tokens := [], frames := ⟨r.tokens, []⟩ :: r.frames }

/-- A comma ends a branch; outside of braces it is itself. -/
def comma (r : Reading) : Reading :=
  match r.frames with
  | [] => r.push (.char ',')
  | f :: fs =>
    { r with tokens := [], frames := { f with done := r.tokens.reverse :: f.done } :: fs }

def closeBrace? (r : Reading) : Option Reading :=
  match r.frames with
  | [] => none
  | f :: fs =>
    let branches := f.done.reverse ++ [r.tokens.reverse]
    some { r with tokens := .oneOf branches :: f.before, frames := fs }

def finish? (r : Reading) : Option Glob := if r.frames.isEmpty then some r.tokens.reverse else none

/-- Two stars that stand for directories, past the start of the pattern. They take the place of the
    character before them, and say nothing new after others of their kind. -/
def pushDirs (r : Reading) (atEnd : Bool) : Reading :=
  match r.tokens with
  | .leadingDirs :: _ => r
  | .trailingDirs :: _ => r
  | _ :: ts => { r with tokens := (if atEnd then .trailingDirs else .middleDirs) :: ts }
  | [] => r

end Reading

/-! ## Classes -/

/-- What stands after an opening bracket. -/
inductive ClassReading where
  | closed (ranges : List (Char × Char)) (rest : List Char)
  | unclosed
  /-- The end of a range comes before its start. -/
  | reversed

/-- The items of a class up to its bracket. `ranges` are those before, in reverse; `first` tells
    whether a bracket is an item, `inRange` whether a hyphen waits for the end of its range. -/
def classItems (ranges : List (Char × Char)) (first inRange : Bool) : List Char → ClassReading
  | [] => .unclosed
  | c :: cs =>
    if c = ']' ∧ first = false then
      .closed (if inRange then (('-', '-') :: ranges).reverse else ranges.reverse) cs
    else if c = '-' ∧ first = false ∧ inRange = false then classItems ranges false true cs
    else
      match inRange, ranges with
      | true, (lo, _) :: more =>
        if c < lo then .reversed else classItems ((lo, c) :: more) false false cs
      | _, _ => classItems ((c, c) :: ranges) false false cs

/-- What follows the opening bracket of a class, and whether it is negated. -/
def classStart : List Char → Bool × List Char
  | '!' :: cs => (true, cs)
  | '^' :: cs => (true, cs)
  | cs => (false, cs)

/-- What has been read up to some character, that character, and what is left. -/
structure Progress where
  reading : Reading
  last : Char
  rest : List Char

/-- An opening bracket and what follows it. -/
def bracket? (r : Reading) (cs : List Char) : Option Progress :=
  if r.hasClasses then
    let (negated, items) := classStart cs
    match classItems [] true false items with
    | .closed ranges rest => some ⟨r.push (.charClass negated ranges), ']', rest⟩
    | .unclosed => some ⟨r.pushBracket, '[', cs⟩
    | .reversed => none
  else some ⟨r.pushBracket, '[', cs⟩

/-! ## Patterns -/

/-- Two stars, the character before them and what follows: they stand for directories if they are
    a whole part of the path, and for themselves otherwise. Inside braces an escaped comma or brace
    before them counts as a slash. -/
def twoStars (r : Reading) (prev : Option Char) (cs : List Char) : Progress :=
  match r.tokens, cs with
  | [], [] => ⟨r.push .leadingDirs, '*', []⟩
  | [], c :: cs => if c = '/' then ⟨r.push .leadingDirs, '/', cs⟩ else ⟨r.pushStars, '*', c :: cs⟩
  | _ :: _, cs =>
    if prev = some '/' ∨ (!r.frames.isEmpty ∧ (prev = some ',' ∨ prev = some '\x7b')) then
      match cs with
      | [] => ⟨r.pushDirs true, '*', []⟩
      | c :: cs =>
        if c = '/' then ⟨r.pushDirs false, '/', cs⟩
        else if (c = ',' ∨ c = '\x7d') ∧ !r.frames.isEmpty then ⟨r.pushDirs true, '*', c :: cs⟩
        else ⟨r.pushStars, '*', c :: cs⟩
    else ⟨r.pushStars, '*', cs⟩

/-- Reads a pattern from some reading on; `prev` is the character just read. Each step takes one
    unit of fuel and at least one character. -/
def parseFrom? : (fuel : Nat) → Reading → (prev : Option Char) → List Char → Option Glob
  | 0, _, _, _ => none
  | _ + 1, r, _, [] => r.finish?
  | fuel + 1, r, prev, c :: cs =>
    match c with
    | '?' => parseFrom? fuel (r.push .any) (some c) cs
    | '*' =>
      match cs with
      | '*' :: cs =>
        let p := twoStars r prev cs
        parseFrom? fuel p.reading (some p.last) p.rest
      | cs => parseFrom? fuel (r.push .star) (some c) cs
    | '[' =>
      match bracket? r cs with
      | none => none
      | some p => parseFrom? fuel p.reading (some p.last) p.rest
    | '\x7b' => parseFrom? fuel r.openBrace (some c) cs
    | '\x7d' =>
      match r.closeBrace? with
      | none => none
      | some r => parseFrom? fuel r (some c) cs
    | ',' => parseFrom? fuel r.comma (some c) cs
    | '\\' =>
      match cs with
      | [] => none
      | c :: cs => parseFrom? fuel (r.push (.char c)) (some c) cs
    | c => parseFrom? fuel (r.push (.char c)) (some c) cs

/-- Reads a pattern. It is none if a brace is not closed or not opened, a range reversed, or nothing
    follows a backslash. -/
def parse? (s : String) : Option Glob :=
  parseFrom? (s.toList.length + 1) .start none s.toList

end SourceOutline.Ignore.Glob
