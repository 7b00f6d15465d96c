import SourceOutline.Files.Tree
import SourceOutline.Settings.Basic

/-
  Settings kept in files.
-/

namespace SourceOutline

/-- Why settings cannot be loaded or written. -/
inductive SettingsFault where
  | file (f : FileFault)
  /-- The text is no TOML, or a key holds what it must not. -/
  | unreadable
  /-- The depth is too large to be written. -/
  | unwritable
  | alreadyThere (path : String)
deriving DecidableEq

def SettingsFault.message : SettingsFault → String
  | .file f => f.message
  | .unreadable => "the settings cannot be read"
  | .unwritable => "the settings cannot be written"
  | .alreadyThere path => s!"config already exists at {path} (use --force to overwrite)"

namespace Settings

def defaultPath : String := "treeplus.toml"

/-- The settings in a file; none if there is no such file. -/
def load (toml : Toml.Format) (files : FileSystem) (path : String) :
    Except SettingsFault (Option Settings) :=
  if files.exists? path then
    match files.readText path with
    | .error f => .error (.file f)
    | .ok text =>
      match ofToml? toml text with
      | none => .error .unreadable
      | some s => .ok (some s)
  else .ok none

/-- Writes settings to a file. One that is there already is replaced only by force. What has been
    done to the files when a fault comes up stays done. -/
def save (toml : Toml.Format) (path : String) (s : Settings) (force : Bool) :
    EStateM SettingsFault FileSystem Unit := do
  let files ← get
  if files.exists? path ∧ force = false then throw (.alreadyThere path)
  match s.toToml? toml with
  | none => throw .unwritable
  | some text =>
    match files.write path text.toUTF8 with
    | .error f => throw (.file f)
    | .ok files => set files

/-- The files once settings are saved. -/
def write (toml : Toml.Format) (files : FileSystem) (path : String) (s : Settings)
    (force : Bool) : Except SettingsFault FileSystem :=
  match (save toml path s force).run files with
  | .ok _ files => .ok files
  | .error f _ => .error f

end Settings

end SourceOutline
