import SourceOutline.Command.Run
import SourceOutline.Json.Parser
import SourceOutline.Scan.Supplies

/-
  The command line. The working directory is read once, the command runs on what was read, and the
  files that it wrote are written out. Node types and parse trees come as JSON on standard input.
-/

namespace SourceOutline

/-- How many directories may stand in each other. -/
def snapshotDepth : Nat := 64

/-- The files and directories at a path. Whatever cannot be read is left out. -/
def snapshot : Nat → String → IO FileTree
  | 0, _ => pure .empty
  | depth + 1, path => do
    let mut entries := []
    for entry in ← (← IO.FS.realPath path).readDir do
      let below := path ++ "/" ++ entry.fileName
      try
        let t ← if ← entry.path.isDir then snapshot depth below
          else FileTree.file <$> IO.FS.readBinFile below
        entries := FileTree.putEntry entry.fileName t entries
      catch _ => pure ()
    pure (.dir entries)

/-- What stands on standard input, if that is no terminal. -/
def readSupplies : IO Supplies := do
  let input ← IO.getStdin
  if ← input.isTty then return .empty
  let text ← input.readToEnd
  return ((Json.parse? text).bind Supplies.ofJson?).getD .empty

/-- The working directory, in its place. -/
def workFiles : IO FileSystem := do
  let place := (← IO.FS.realPath ".").toString
  let workDir := (Path.parts place).filter (· ≠ "")
  return ⟨FileTree.insert (← snapshot snapshotDepth ".") workDir .empty, workDir⟩

def surroundings : IO Surroundings := do
  let files ← workFiles
  let supplies ← readSupplies
  let terminal ← (← IO.getStdout).isTty
  let quiet ← IO.getEnv "TREEPLUS_QUIET"
  return {
    files
    user := ⟨← IO.getEnv "HOME", ← IO.getEnv "XDG_CONFIG_HOME"⟩
    display := ⟨Theme.detect terminal, Display.wantsQuiet quiet⟩
    parse := supplies.parser files
    types := supplies.types
    toml := .lines }

def runProgram (words : List String) : IO UInt32 := do
  let r := (← surroundings).run words
  for path in r.written do
    if let .ok content := r.files.read path then IO.FS.writeBinFile path content
  for p in r.printed do
    match p with
    | .out text => IO.print text
    | .err text => IO.eprint text
  return r.exit.toUInt32

end SourceOutline

def main (words : List String) : IO UInt32 := SourceOutline.runProgram words
