import SourceOutline.Ignore.Glob.Basic

/-
  Which paths a pattern fits. A pattern is read from left to right with all places of the path that
  it may have come to, so the work grows with the length of the pattern times that of the path.
-/

namespace SourceOutline.Ignore

/-- The places of a path that a pattern has come to, with one mark before each byte and one at the
    end. -/
abbrev Marks := List Bool

namespace Marks

/-- Only the start of the path. -/
def start (path : Bytes) : Marks := true :: path.map fun _ => false

def union (a b : Marks) : Marks := List.zipWith (· || ·) a b

/-- The places behind one byte that `p` takes. -/
def step (p : UInt8 → Bool) (path : Bytes) (marks : Marks) : Marks :=
  false :: List.zipWith (fun b m => p b && m) path marks

/-- The places behind any number of bytes that `p` takes; `reached` tells whether the first place is
    behind such bytes. -/
def spread (p : UInt8 → Bool) (reached : Bool) : Bytes → Marks → Marks
  | b :: bs, m :: ms => (m || reached) :: spread p ((m || reached) && p b) bs ms
  | [], m :: _ => [m || reached]
  | _, [] => []

/-- The places behind a text. -/
def text (t : Bytes) (path : Bytes) (marks : Marks) : Marks :=
  t.foldl (fun ms b => step (· == b) path ms) marks

def afterSlash (path : Bytes) (marks : Marks) : Marks := step (· == slash) path marks

def afterAll (path : Bytes) (marks : Marks) : Marks := spread (fun _ => true) false path marks

/-- The same places, and those behind a later slash. -/
def overDirs (path : Bytes) (marks : Marks) : Marks :=
  marks.union (afterSlash path (afterAll path marks))

def atEnd (marks : Marks) : Bool := marks.getLast? = some true

end Marks

namespace Glob

def inRanges (ranges : List (Char × Char)) (b : UInt8) : Bool :=
  (ranges.flatMap rangeBytes).any fun r => r.1 ≤ b && b ≤ r.2

mutual

/-- The places of a path behind what the tokens ask for. -/
def advance (path : Bytes) : List Token → Marks → Marks
  | [], marks => marks
  | t :: ts, marks => advance path ts (advanceToken path t marks)

def advanceToken (path : Bytes) : Token → Marks → Marks
  | .char c, marks => marks.text (bytesOf c.toString) path
  | .any, marks => marks.step (· != slash) path
  | .star, marks => marks.spread (· != slash) false path
  | .charClass negated ranges, marks => marks.step (fun b => inRanges ranges b != negated) path
  | .leadingDirs, marks => marks.overDirs path
  | .trailingDirs, marks => (marks.afterSlash path).afterAll path
  | .middleDirs, marks => (marks.afterSlash path).overDirs path
  | .oneOf branches, marks =>
    if areVoid branches then marks else advanceBranches path branches marks

def advanceBranches (path : Bytes) : List (List Token) → Marks → Marks
  | [], marks => marks.map fun _ => false
  | b :: bs, marks =>
    let more := advanceBranches path bs marks
    if isVoid b then more else (advance path b marks).union more

end

/-! ## Paths without a file name -/

def isPlain (ts : List Token) : Bool :=
  ts.all fun
    | .char _ => true
    | _ => false

def hasSlash (ts : List Token) : Bool :=
  ts.any fun
    | .char c => c = '/'
    | _ => false

/-- Whether a pattern gives a whole path, or the end of one that has a slash, letter by letter. -/
def isPlainPath : List Token → Bool
  | .leadingDirs :: ts => isPlain ts && hasSlash ts
  | ts => isPlain ts

/-- Whether the path has to end in a file name for a pattern to fit. Only patterns that end in a dot
    can tell. -/
def asksForName (g : Glob) : Bool :=
  match g.getLast? with
  | some (.char '.') => !isPlainPath g
  | _ => false

/-- Whether the last part of a path is the parent directory, which is no file name. -/
def endsInParent (path : Bytes) : Bool :=
  match path.reverse with
  | [0x2E, 0x2E] => true
  | 0x2E :: 0x2E :: b :: _ => b = slash
  | _ => false

/-- Whether a pattern fits a whole path. Two stars alone fit every path. -/
def fits (g : Glob) (path : String) : Bool :=
  match g with
  | [.leadingDirs] => true
  | g =>
    let path := bytesOf path
    !(asksForName g && endsInParent path) && (advance path g (Marks.start path)).atEnd

end Glob

end SourceOutline.Ignore
