import SourceOutline.Files.Path

/-
  Directories and files. They form a tree, in which the entries of a directory are listed by name.
  An absolute path is followed from the top of the tree, any other from the working directory.
-/

namespace SourceOutline

inductive FileTree where
  | file (content : ByteArray)
  /-- The entries in increasing order of their names. -/
  | dir (entries : List (String × FileTree))

/-- Why a file cannot be read or written. -/
inductive FileFault where
  | notFound
  | notDirectory
  | isDirectory
  | nameTooLong
  /-- The path has a null character. -/
  | nullInPath
  /-- The content is no UTF-8 text. -/
  | notText
deriving DecidableEq

def FileFault.message : FileFault → String
  | .notFound => "No such file or directory (os error 2)"
  | .notDirectory => "Not a directory (os error 20)"
  | .isDirectory => "Is a directory (os error 21)"
  | .nameTooLong => "File name too long (os error 36)"
  | .nullInPath => "file name contained an unexpected NUL byte"
  | .notText => "stream did not contain valid UTF-8"

namespace FileTree

def empty : FileTree := .dir []

def isDir : FileTree → Bool
  | .dir _ => true
  | .file _ => false

def lookUp? (name : String) (entries : List (String × FileTree)) : Option FileTree :=
  (entries.find? (·.1 = name)).map Prod.snd

/-- What the names lead to, one directory after the other. -/
def at? : FileTree → List String → Option FileTree
  | t, [] => some t
  | .dir entries, name :: names => (lookUp? name entries).bind fun t => t.at? names
  | .file _, _ :: _ => none

/-- An entry put in its place among the others; it replaces one of the same name. -/
def putEntry (name : String) (t : FileTree) : List (String × FileTree) → List (String × FileTree)
  | [] => [(name, t)]
  | e :: es =>
    if name < e.1 then (name, t) :: e :: es
    else if name = e.1 then (name, t) :: es
    else e :: putEntry name t es

/-- Puts a tree at the end of some names, making directories on the way. -/
def insert (new : FileTree) : List String → FileTree → FileTree
  | [], _ => new
  | name :: names, t =>
    let entries := match t with
      | .dir entries => entries
      | .file _ => []
    .dir (putEntry name (insert new names ((lookUp? name entries).getD empty)) entries)

/-! ## Paths -/

/-- Names of entries are no longer than this, in bytes. -/
def maxName : Nat := 255

/-- Paths are no longer than this, in bytes. -/
def maxPath : Nat := 4095

/-- What is wrong with a path whatever the files. -/
def pathFault? (path : String) : Option FileFault :=
  if Char.ofNat 0 ∈ path.toList then some .nullInPath
  else if maxPath < path.utf8ByteSize then some .nameTooLong
  else if path = "" then some .notFound
  else none

/-- Follows the parts of a path from the directory at `names`, and gives the names of its end. The
    top is its own parent. -/
def follow (root : FileTree) (names : List String) : List String → Except FileFault (List String)
  | [] => .ok names
  | part :: parts =>
    match root.at? names with
    | some (.dir entries) =>
      if part = "" ∨ part = "." then root.follow names parts
      else if part = ".." then root.follow names.dropLast parts
      else if maxName < part.utf8ByteSize then .error .nameTooLong
      else if (lookUp? part entries).isSome then root.follow (names ++ [part]) parts
      else .error .notFound
    | some (.file _) => .error .notDirectory
    | none => .error .notFound

end FileTree

/-- The files as a program sees them. -/
structure FileSystem where
  root : FileTree
  /-- The names on the way from the root to the working directory. -/
  workDir : List String

namespace FileSystem

/-- Where a path starts. -/
def start (fs : FileSystem) (path : String) : List String :=
  if Path.isAbsolute path then [] else fs.workDir

/-- The names that a path leads to. -/
def resolve (fs : FileSystem) (path : String) : Except FileFault (List String) :=
  match FileTree.pathFault? path with
  | some f => .error f
  | none => fs.root.follow (fs.start path) (Path.parts path)

def exists? (fs : FileSystem) (path : String) : Bool :=
  match fs.resolve path with
  | .ok _ => true
  | .error _ => false

def read (fs : FileSystem) (path : String) : Except FileFault ByteArray := do
  let names ← fs.resolve path
  match fs.root.at? names with
  | some (.file content) => pure content
  | some (.dir _) => throw .isDirectory
  | none => throw .notFound

def readText (fs : FileSystem) (path : String) : Except FileFault String := do
  let content ← fs.read path
  match String.fromUTF8? content with
  | some text => pure text
  | none => throw .notText

/-- Where a file of a path would stand. A path that ends in a slash, or in a dot, names a
    directory. -/
def target (fs : FileSystem) (path : String) : Except FileFault (List String) := do
  if let some f := FileTree.pathFault? path then throw f
  let parts := Path.parts path
  let trimmed := (parts.reverse.dropWhile (· = "")).reverse
  let parent ← fs.root.follow (fs.start path) trimmed.dropLast
  match fs.root.at? parent, trimmed.getLast? with
  | some (.dir entries), some name =>
    if name = "." ∨ name = ".." ∨ trimmed.length < parts.length then throw .isDirectory
    if FileTree.maxName < name.utf8ByteSize then throw .nameTooLong
    match FileTree.lookUp? name entries with
    | some (.dir _) => throw .isDirectory
    | _ => pure (parent ++ [name])
  | some (.dir _), none => throw .isDirectory
  | some (.file _), _ => throw .notDirectory
  | none, _ => throw .notFound

/-- Writes a file; its directory has to be there. -/
def write (fs : FileSystem) (path : String) (content : ByteArray) :
    Except FileFault FileSystem := do
  pure { fs with root := FileTree.insert (.file content) (← fs.target path) fs.root }

end FileSystem

end SourceOutline
