import SourceOutline.Ignore.Filter

/-
  Walking through a directory. Entries come in the order of their names, a directory before what
  is in it.

  Each directory on the way from the top may hold rules. Those of the closest directory come first;
  `.ignore` files come before `.gitignore` files, and these count only inside a repository. Rules
  for all repositories come last. Hidden entries are passed over unless a rule keeps them.
-/

namespace SourceOutline

/-- What a walk comes across. -/
inductive WalkEntry where
  /-- A file, with what reading it gives. -/
  | file (path : String) (content : Except FileFault ByteArray)
  /-- A directory, or something that cannot be looked at. -/
  | other (path : String)

namespace Ignore

/-- Where a directory with rules stands. -/
inductive Place where
  /-- At a path of the walk. -/
  | walked (path : String)
  /-- Above the root of the walk, with the way from it down to the root. -/
  | above (way root : String)

/-- A path of the walk as the rules at a place see it. -/
def Place.view (path : String) : Place → String
  | .walked dir => Filter.relative dir (Path.dropDot path)
  | .above way root => way ++ "/" ++ Filter.relative root path

/-- A directory on the way, with the rules in it. -/
structure Level where
  place : Place
  ignore : Rules
  gitignore : Rules
  gitExclude : Rules
  /-- Whether it is the top of a repository. -/
  isRepository : Bool

namespace Level

def rulesAt (entries : List (String × FileTree)) (names : List String) : Rules :=
  match (FileTree.dir entries).at? names with
  | some (.file content) => .ofFile content
  | _ => []

/-- Where the data of a repository is that a file leads to. The file gives the directory of this
    copy of the repository, and a file in there the one that all copies share. -/
def commonDir? (files : FileSystem) (content : ByteArray) : Option String := do
  let link ← Rules.firstLine? content
  let dir ← Path.dropText? "gitdir: " link
  let common ← match files.read (Path.join dir "commondir") with
    | .ok content => Rules.firstLine? content
    | .error _ => none
  pure (if common.toList.head? = some '.' then Path.join dir common else common)

/-- The rules that a repository keeps among its data. -/
def excludeRules (files : FileSystem) (entries : List (String × FileTree)) : Rules :=
  match FileTree.lookUp? ".git" entries with
  | some (.file content) =>
    match commonDir? files content with
    | some dir => Filter.fileRules files (Path.join dir "info/exclude")
    | none => []
  | _ => rulesAt entries [".git", "info", "exclude"]

def ofDir (files : FileSystem) (place : Place) (entries : List (String × FileTree)) : Level where
  place := place
  ignore := (rulesAt entries [".ignore"]).usable
  gitignore := (rulesAt entries [".gitignore"]).usable
  gitExclude := (excludeRules files entries).usable
  isRepository := [".git", ".jj"].any fun name => (FileTree.lookUp? name entries).isSome

/-- The levels up to the closest repository; none outside of one. -/
def inRepository : List Level → List Level
  | [] => []
  | l :: ls =>
    if l.isRepository then [l]
    else
      match inRepository ls with
      | [] => []
      | above => l :: above

/-- The verdict of the closest level that has one. -/
def firstVerdict (rules : Level → Rules) (path : String) (isDir : Bool) : List Level → Verdict
  | [] => .none
  | l :: ls =>
    match (rules l).verdict (l.place.view path) isDir with
    | .none => firstVerdict rules path isDir ls
    | v => v

end Level

def Verdict.orElse : Verdict → Verdict → Verdict
  | .none, w => w
  | v, _ => v

/-- What the rules on the way, closest first, say about a path; `everywhere` are the rules for all
    repositories. -/
def levelsVerdict (everywhere : Rules) (levels : List Level) (path : String) (isDir : Bool) :
    Verdict :=
  let inside := Level.inRepository levels
  let last : Rules := if inside.isEmpty then [] else everywhere
  (Level.firstVerdict Level.ignore path isDir levels).orElse
    ((Level.firstVerdict Level.gitignore path isDir inside).orElse
      ((Level.firstVerdict Level.gitExclude path isDir inside).orElse
        (last.verdict (Path.dropDot (Path.dropDot path)) isDir)))

def isHidden (name : String) : Bool := name.toList.head? = some '.'

/-- What a walk goes by. -/
structure Walker where
  files : FileSystem
  /-- Rules for all repositories. -/
  everywhere : Rules
  /-- Decides on the entries below the root, besides the rules. -/
  keep : (path : String) → (isDir : Bool) → Bool

namespace Walker

/-- Whether an entry is passed over. -/
def passesOver (w : Walker) (levels : List Level) (path name : String) (isDir : Bool) : Bool :=
  !w.keep path isDir ||
    match levelsVerdict w.everywhere levels path isDir with
    | .ignored => true
    | .kept => false
    | .none => isHidden name

mutual

/-- The entries from a tree at `path` on. -/
def walkTree (w : Walker) (levels : List Level) (path : String) : FileTree → List WalkEntry
  | .file content => [.file path (.ok content)]
  | .dir entries =>
    let levels := Level.ofDir w.files (.walked path) entries :: levels
    .other path :: walkEntries w levels path entries

def walkEntries (w : Walker) (levels : List Level) (path : String) :
    List (String × FileTree) → List WalkEntry
  | [] => []
  | (name, t) :: entries =>
    let below := Path.join path name
    let here := if w.passesOver levels below name t.isDir then [] else walkTree w levels below t
    here ++ walkEntries w levels path entries

end

/-- The levels of the directories on the way to the end of `names`, which is left out. -/
def levelsAbove (w : Walker) (root : String) :
    List Level → FileTree → List String → List Level
  | levels, .dir entries, next :: names =>
    let way := "/".intercalate (next :: names)
    let levels := Level.ofDir w.files (.above way root) entries :: levels
    match FileTree.lookUp? next entries with
    | some t => w.levelsAbove root levels t names
    | none => levels
  | levels, _, _ => levels

/-- What there is at and below a path; nothing if there is no such path. A hyphen alone stands for
    the standard input, which has no entries. -/
def walk (w : Walker) (root : String) : List WalkEntry :=
  if Path.isOnly "-" root then []
  else
    match w.files.resolve root with
    | .error _ => []
    | .ok names =>
      match w.files.root.at? names with
      | none => []
      | some t => w.walkTree (w.levelsAbove root [] w.files.root names) root t

end Walker

end Ignore

end SourceOutline
