/-
  Reading the words of a command line against declared options.

  An option has a long name after two hyphens, and may have a letter after one. Letters may stand
  together; a value follows as the next word, after an equals sign, or right after its letter. Two
  hyphens alone end the options. An option stands once. Words that are no options fill places.
-/

namespace SourceOutline

inductive OptionKind where
  /-- Given or not. -/
  | flag
  /-- With any text as its value. -/
  | text
  /-- With a text that is not empty. -/
  | path
  /-- With a number below two to the 64th. -/
  | number
  /-- Asks for the version of the program, whatever else is given after it. -/
  | version
  /-- Asks for a description, likewise. -/
  | help
deriving DecidableEq

/-- An option, or a place for a word. -/
structure OptionSpec where
  name : String
  letter : Option Char
  kind : OptionKind
  /-- What it is for. -/
  about : String

namespace OptionSpec

def takesValue (o : OptionSpec) : Bool :=
  match o.kind with
  | .text | .path | .number => true
  | .flag | .version | .help => false

/-- Digits, with a plus sign in front or not. -/
def number? (s : String) : Option Nat :=
  let digits := match s.toList with
    | '+' :: ds => ds
    | ds => ds
  if digits ≠ [] ∧ digits.all Char.isDigit then
    let n := digits.foldl (fun n d => n * 10 + (d.toNat - '0'.toNat)) 0
    if n < Nat.pow 2 64 then some n else none
  else none

def accepts (o : OptionSpec) (v : String) : Bool :=
  match o.kind with
  | .path => v ≠ ""
  | .number => (number? v).isSome
  | _ => true

end OptionSpec

/-- Options that were given, by name. -/
structure GivenOptions where
  values : List (String × String)

namespace GivenOptions

instance : EmptyCollection GivenOptions := ⟨⟨[]⟩⟩

def get? (g : GivenOptions) (name : String) : Option String :=
  (g.values.find? (·.1 = name)).map Prod.snd

def has (g : GivenOptions) (name : String) : Bool := (g.get? name).isSome

/-- One more option, if it is not there yet and takes the value. -/
def add? (g : GivenOptions) (o : OptionSpec) (v : String) : Option GivenOptions :=
  if g.has o.name ∨ o.accepts v = false then none else some ⟨(o.name, v) :: g.values⟩

end GivenOptions

/-- What comes of reading words. -/
inductive Words where
  | rejected
  | version
  | help (long : Bool)
  /-- All words were read. -/
  | done (given : GivenOptions)
  /-- A word that is no option came first where one names what follows. -/
  | subcommand (given : GivenOptions) (name : String) (rest : List String)

namespace Words

/-- What one word of options leaves: nothing, or an option that waits for its value. -/
inductive Step where
  | rejected
  | version
  | help (long : Bool)
  | given (g : GivenOptions)
  | waiting (g : GivenOptions) (o : OptionSpec)

def Step.ofGiven : Option GivenOptions → Step
  | none => .rejected
  | some g => .given g

/-- A word after its two hyphens. -/
def longStep (options : List OptionSpec) (g : GivenOptions) (word : List Char) : Step :=
  let (name, rest) := word.span (· ≠ '=')
  match options.find? (·.name.toList = name), rest with
  | none, _ => .rejected
  | some o, [] =>
    match o.kind with
    | .version => .version
    | .help => .help true
    | .flag => .ofGiven (g.add? o "")
    | _ => .waiting g o
  | some o, _ :: v => if o.takesValue then .ofGiven (g.add? o (String.ofList v)) else .rejected

/-- Letters after one hyphen. -/
def letterStep (options : List OptionSpec) (g : GivenOptions) : List Char → Step
  | [] => .given g
  | c :: cs =>
    match options.find? (·.letter = some c) with
    | none => .rejected
    | some o =>
      match o.kind with
      | .version => .version
      | .help => .help false
      | .flag =>
        match g.add? o "" with
        | none => .rejected
        | some g => letterStep options g cs
      | _ =>
        match cs with
        | [] => .waiting g o
        | '=' :: v => .ofGiven (g.add? o (String.ofList v))
        | v => .ofGiven (g.add? o (String.ofList v))

/-- Words for places, one each. -/
def fill (g : GivenOptions) : (places : List OptionSpec) → List String → Words
  | _, [] => .done g
  | [], _ :: _ => .rejected
  | p :: places, word :: words =>
    match g.add? p word with
    | none => .rejected
    | some g => fill g places words

/-- Reads words. `nested` tells whether a word that is no option names what follows; `waiting` is an
    option whose value is the next word. -/
def read (options places : List OptionSpec) (nested : Bool) (g : GivenOptions)
    (waiting : Option OptionSpec) : List String → Words
  | [] => if waiting.isSome then .rejected else .done g
  | word :: words =>
    let isOption := match word.toList with
      | '-' :: _ :: _ => true
      | _ => false
    match waiting with
    | some o =>
      if isOption then .rejected
      else
        match g.add? o word with
        | none => .rejected
        | some g => read options places nested g none words
    | none =>
      if isOption = false then
        if nested then .subcommand g word words
        else
          match places with
          | [] => .rejected
          | p :: places =>
            match g.add? p word with
            | none => .rejected
            | some g => read options places nested g none words
      else if word = "--" then fill g places words
      else
        let step := match word.toList with
          | '-' :: '-' :: cs => longStep options g cs
          | cs => letterStep options g (cs.drop 1)
        match step with
        | .rejected => .rejected
        | .version => .version
        | .help long => .help long
        | .given g => read options places nested g none words
        | .waiting g o => read options places nested g (some o) words

end Words

end SourceOutline
