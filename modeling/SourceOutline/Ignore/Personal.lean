import SourceOutline.Ignore.Filter

/-
  Rules of the user, which hold in every repository. They are in the file that the configuration of
  Git names, or else in `git/ignore` among the user's settings.
-/

namespace SourceOutline.Ignore

/-- Where the user's own files are, as the environment tells. -/
structure UserDirs where
  home : Option String
  /-- The directory for settings, if not the usual one. -/
  settings : Option String

namespace UserDirs

def unknown : UserDirs := ⟨none, none⟩

def settingsDir? (u : UserDirs) : Option String :=
  match u.settings with
  | some dir => if dir = "" then usual else some dir
  | none => usual
where
  usual : Option String := u.home.map (Path.join · ".config")

/-! ## The configuration of Git

Of its text only the key `excludesfile` counts, with a value of one word that ends its line. The
word may stand in quotes. -/

def isBlank (b : UInt8) : Bool := b = 0x20 || (0x09 ≤ b && b ≤ 0x0D)

def dropBlanks (text : Bytes) : Bytes := text.dropWhile isBlank

/-- Whether only blanks stand before the end of a line. -/
def endsLine : Bytes → Bool
  | [] => true
  | b :: bs => b = 0x0A || (isBlank b && endsLine bs)

/-- The same, or with a quotation mark among the blanks. -/
def endsValue (text : Bytes) : Bool :=
  endsLine text ||
    match dropBlanks text with
    | b :: bs => b = 0x22 && endsLine bs
    | [] => false

/-- The shortest word that ends its line; `taken` is its start in reverse. -/
def value? (taken : Bytes) : Bytes → Option Bytes
  | [] => none
  | b :: bs =>
    if isBlank b then none
    else if endsValue bs then some (b :: taken).reverse
    else value? (b :: taken) bs

/-- The value after an equals sign. -/
def assigned? (text : Bytes) : Option Bytes :=
  match dropBlanks text with
  | 0x3D :: text =>
    match dropBlanks text with
    | 0x22 :: quoted => (value? [] (dropBlanks quoted)).or (value? [] (0x22 :: quoted))
    | text => value? [] text
  | _ => none

/-- What follows the key, which is written in small or capital letters. -/
def afterKey? (text : Bytes) : Option Bytes :=
  let key := bytesOf "excludesfile"
  let lower (b : UInt8) : UInt8 := if 0x41 ≤ b && b ≤ 0x5A then b + 0x20 else b
  if (text.take key.length).map lower = key then some (text.drop key.length) else none

/-- The text from each start of a line on. -/
def lineStarts (text : Bytes) : List Bytes := text :: afterNewlines text
where
  afterNewlines : Bytes → List Bytes
    | [] => []
    | b :: bs => if b = 0x0A then bs :: afterNewlines bs else afterNewlines bs

/-- The first value of the key. -/
def excludesFile? (text : Bytes) : Option Bytes :=
  (lineStarts text).findSome? fun line => (afterKey? (dropBlanks line)).bind assigned?

/-! ## Rules -/

/-- Tildes stand for the home directory. -/
def expand (u : UserDirs) (path : String) : String :=
  match u.home with
  | none => path
  | some home => String.join (path.toList.map fun c => if c = '~' then home else c.toString)

/-- The file that a configuration names. -/
def named? (u : UserDirs) (files : FileSystem) (config : String) : Option String :=
  match files.read config with
  | .error _ => none
  | .ok content =>
    (excludesFile? content.toList).bind fun name =>
      (String.fromUTF8? ⟨name.toArray⟩).map u.expand

def rulesFile? (u : UserDirs) (files : FileSystem) : Option String :=
  let inHome := u.home.bind fun dir => u.named? files (Path.join dir ".gitconfig")
  let inSettings := u.settingsDir?.bind fun dir => u.named? files (Path.join dir "git/config")
  inHome.or (inSettings.or (u.settingsDir?.map (Path.join · "git/ignore")))

def rules (u : UserDirs) (files : FileSystem) : Rules :=
  match u.rulesFile? files with
  | some path => (Filter.fileRules files path).usable
  | none => []

end UserDirs

end SourceOutline.Ignore
