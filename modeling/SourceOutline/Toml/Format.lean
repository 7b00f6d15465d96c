import SourceOutline.Toml.Parser

/-
  Formats of TOML documents.

  How tables become texts, and texts tables, is left open: a format is any writer and any reader.
  What a format of TOML 1.0 does with tables of numbers and lists of strings is `Format.Lawful`.
  `Format.lines` is the format that is used, with a line to a key.
-/

namespace SourceOutline.Toml

def ofStrings (l : List String) : Toml := .array (l.map .string)

def strings? : Toml → Option (List String)
  | .array items => items.mapM fun
    | .string s => some s
    | _ => none
  | _ => none

/-- Integers in documents are below this, and not below its negative. -/
def integerLimit : Nat := Nat.pow 2 63

/-! ## Formats -/

structure Format where
  /-- The text of a table; none if it has none. -/
  write? : Entries → Option String
  /-- The table in a text; none if the text is no document. -/
  read? : String → Option Entries

/-- Numbers from zero on and lists of strings. -/
inductive Flat : Toml → Prop where
  | number (n : Nat) : Flat (.integer n)
  | strings (l : List String) : Flat (ofStrings l)

/-- A name that needs no quotes as a key. -/
def IsBareKey (key : String) : Prop := key ≠ "" ∧ ∀ c ∈ key.toList, Parser.isBareChar c = true

/-- A table of such values under distinct keys. -/
structure FlatTable (t : Entries) : Prop where
  flat : ∀ e ∈ t, e.2.Flat
  bare : ∀ e ∈ t, IsBareKey e.1
  distinct : (t.map Prod.fst).Nodup

/-- Whether every number of a table is an integer of a document, which has 64 bits with a sign. -/
def NumbersFit (t : Entries) : Prop := ∀ e ∈ t, ∀ n : Nat, e.2 = .integer n → n < integerLimit

/-- What is asked of a format. -/
structure Format.Lawful (f : Format) : Prop where
  /-- Tables are written as long as their numbers fit. -/
  isSome_write?_iff : ∀ {t : Entries}, FlatTable t → ((f.write? t).isSome ↔ NumbersFit t)
  /-- What was written is read with the same value under every key. -/
  get?_of_write? : ∀ {t : Entries} {text : String}, FlatTable t → f.write? t = some text →
    ∃ t', f.read? text = some t' ∧ ∀ key, get? t' key = get? t key

/-! ## A line to a key -/

/-- An item on a line of its own. -/
def itemChars (s : String) : List Char :=
  [' ', ' ', ' ', ' '] ++ Quoted.writeChars s.toList ++ [',', '\n']

/-- A list of strings. Two or more items stand on a line each. -/
def listChars : List String → List Char
  | [] => ['[', ']']
  | [s] => '[' :: Quoted.writeChars s.toList ++ [']']
  | items => '[' :: '\n' :: items.flatMap itemChars ++ [']']

/-- The text of a number or of a list of strings. Other values have none. -/
def valueChars? : Toml → Option (List Char)
  | .integer (.ofNat n) => if n < integerLimit then some (Nat.toDigits 10 n) else none
  | v => v.strings?.map listChars

def lineChars (key : String) (v : List Char) : List Char :=
  key.toList ++ [' ', '=', ' '] ++ v ++ ['\n']

/-- The lines of a table. -/
def linesChars? : Entries → Option (List Char)
  | [] => some []
  | e :: t => do
    let v ← valueChars? e.2
    pure (lineChars e.1 v ++ (← linesChars? t))

def Format.lines : Format where
  write? t := (linesChars? t).map String.ofList
  read? := parse?

end SourceOutline.Toml
