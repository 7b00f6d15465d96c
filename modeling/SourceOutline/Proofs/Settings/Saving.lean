import Mathlib.Algebra.Group.Nat.Defs
import SourceOutline.Proofs.Files.WriteRead
import SourceOutline.Proofs.Toml.Lines
import SourceOutline.Settings.Store

/-
  Settings that are saved are loaded again as they were, and a refusal leaves the files alone
  (`Settings.save_then_load`). This holds for every lawful format of TOML.

  The table of settings is read back as the settings (`ofTable?_toTable`), and so is every table
  with the same values; a lawful format brings such a table back (`ofToml?_of_toToml?`). Both checks
  come before the file is touched (`run_save`): whether one is there already, and whether the
  settings have a text. What is written is read back at a path that then leads to it
  (`FileSystem.readText_of_write`).
-/

namespace SourceOutline.Settings

/-! ## The table of settings -/

theorem flatTable_toTable (s : Settings) : Toml.FlatTable s.toTable := by
  obtain ⟨languages, exclude, depth⟩ := s
  have hlanguages : Toml.IsBareKey "languages" := ⟨by decide, List.all_eq_true.1 (by decide)⟩
  have hexclude : Toml.IsBareKey "exclude" := ⟨by decide, List.all_eq_true.1 (by decide)⟩
  have hdepth : Toml.IsBareKey "max_depth" := ⟨by decide, List.all_eq_true.1 (by decide)⟩
  constructor
  · cases languages <;> cases depth <;> simp [toTable, Toml.Flat.strings, Toml.Flat.number]
  · cases languages <;> cases depth <;> simp [toTable, hlanguages, hexclude, hdepth]
  · cases languages <;> cases depth <;> simp [toTable]

/-- The only number of settings is their depth. -/
theorem maxDepth_of_mem_toTable {s : Settings} {e : String × Toml} (he : e ∈ s.toTable) {n : Nat}
    (hn : e.2 = .integer n) : s.maxDepth = some n := by
  simp only [toTable, List.mem_append, Option.mem_toList, Option.map_eq_some_iff,
    List.mem_singleton] at he
  rcases he with (⟨l, -, rfl⟩ | rfl) | ⟨d, hd, rfl⟩
  · cases hn
  · cases hn
  · rw [hd, Int.ofNat.inj (Toml.integer.inj hn)]

theorem numbersFit_toTable_iff (s : Settings) :
    Toml.NumbersFit s.toTable ↔ ∀ d, s.maxDepth = some d → d < 2 ^ 63 := by
  constructor
  · intro h d hd
    exact h ("max_depth", .integer d) (by simp [toTable, hd]) d rfl
  · intro h e he n hn
    exact h n (maxDepth_of_mem_toTable he hn)

theorem ofTable?_toTable (s : Settings) : ofTable? s.toTable = some s := by
  obtain ⟨languages, exclude, depth⟩ := s
  cases languages <;> cases depth <;>
    simp [ofTable?, toTable, Toml.get?, Keyed.find?, optional?, Toml.strings?_ofStrings, depth?]

section Format

variable {toml : Toml.Format} (htoml : toml.Lawful)

include htoml

theorem isSome_toToml?_iff (s : Settings) :
    (s.toToml? toml).isSome ↔ ∀ d, s.maxDepth = some d → d < 2 ^ 63 := by
  rw [toToml?, htoml.isSome_write?_iff s.flatTable_toTable, numbersFit_toTable_iff]

/-- What the text of settings is read as. -/
theorem ofToml?_of_toToml? {s : Settings} {text : String} (h : s.toToml? toml = some text) :
    ofToml? toml text = some s := by
  obtain ⟨t, hread, hget⟩ := htoml.get?_of_write? s.flatTable_toTable h
  have hsame : ofTable? t = ofTable? s.toTable := by
    simp only [ofTable?, hget]
  rw [ofToml?, hread, Option.bind_some, hsame, ofTable?_toTable]

end Format

/-! ## Saving -/

/-- What saving does, check by check. -/
theorem run_save (toml : Toml.Format) (files : FileSystem) (path : String) (s : Settings)
    (force : Bool) :
    (save toml path s force).run files =
      if files.exists? path ∧ force = false then .error (.alreadyThere path) files
      else
        match s.toToml? toml with
        | none => .error .unwritable files
        | some text =>
          match files.write path text.toUTF8 with
          | .error f => .error (.file f) files
          | .ok after => .ok () after := by
  by_cases hthere : files.exists? path ∧ force = false
  · simp [save, hthere]
  · rw [if_neg hthere]
    simp only [save, EStateM.run_bind, EStateM.run_get, if_neg hthere]
    cases s.toToml? toml with
    | none => rfl
    | some text =>
      dsimp only
      cases files.write path text.toUTF8 with
      | error f => rfl
      | ok after => rfl

theorem exists_text_of_run_save {toml : Toml.Format} {files after : FileSystem} {path : String}
    {s : Settings} {force : Bool} (h : (save toml path s force).run files = .ok () after) :
    ∃ text, s.toToml? toml = some text ∧ files.write path text.toUTF8 = .ok after := by
  rw [run_save] at h
  split at h
  · cases h
  · split at h
    · cases h
    · next text htext =>
      split at h
      · cases h
      · next written hwrite =>
        cases h
        exact ⟨text, htext, hwrite⟩

section Format

variable {toml : Toml.Format} (htoml : toml.Lawful)

include htoml

theorem load_of_write {files after : FileSystem} {path text : String} {s : Settings}
    (htext : s.toToml? toml = some text) (hwrite : files.write path text.toUTF8 = .ok after) :
    load toml after path = .ok (some s) := by
  have hthere := (FileSystem.read_of_write hwrite).1
  have hread := FileSystem.readText_of_write hwrite
  simp only [load, hthere, if_true, hread, ofToml?_of_toToml? htoml htext]

/-- A depth without a text is a fault, whichever of the two checks comes up first. -/
theorem run_save_of_large {s : Settings} {d : Nat} (hdepth : s.maxDepth = some d)
    (hlarge : 2 ^ 63 ≤ d) (files : FileSystem) (path : String) (force : Bool) :
    ∃ f, (save toml path s force).run files = .error f files := by
  have hnone : s.toToml? toml = none := by
    rw [← Option.not_isSome_iff_eq_none, isSome_toToml?_iff htoml]
    intro h
    exact Nat.not_lt.2 hlarge (h d hdepth)
  rw [run_save, hnone]
  split
  · exact ⟨_, rfl⟩
  · exact ⟨_, rfl⟩

theorem run_save_of_target {files : FileSystem} {path : String} {names : List String}
    (hplace : files.target path = .ok names) {force : Bool}
    (hforce : files.exists? path = true → force = true) {s : Settings}
    (hdepth : ∀ d, s.maxDepth = some d → d < 2 ^ 63) :
    ∃ after, (save toml path s force).run files = .ok () after := by
  obtain ⟨text, htext⟩ := Option.isSome_iff_exists.1 ((isSome_toToml?_iff htoml s).2 hdepth)
  have hfree : ¬ (files.exists? path = true ∧ force = false) := by
    rintro ⟨hthere, hno⟩
    rw [hforce hthere] at hno
    cases hno
  obtain ⟨after, hwrite⟩ : ∃ after, files.write path text.toUTF8 = .ok after := by
    rw [FileSystem.write, hplace]
    exact ⟨_, rfl⟩
  rw [run_save, if_neg hfree, htext]
  dsimp only
  rw [hwrite]
  exact ⟨after, rfl⟩

end Format

/-- Settings that are saved are loaded again. Where a file is in the way, or the depth is too large
    for a settings file, nothing is saved and the files stay as they were; otherwise the settings
    are saved wherever there is place for a file. -/
theorem save_then_load {toml : Toml.Format} (htoml : toml.Lawful) (files : FileSystem)
    (path : String) (s : Settings) (force : Bool) :
    (∀ after, (save toml path s force).run files = .ok () after →
      load toml after path = .ok (some s)) ∧
    (files.exists? path = true → force = false →
      (save toml path s force).run files = .error (.alreadyThere path) files) ∧
    (∀ d, s.maxDepth = some d → 2 ^ 63 ≤ d →
      ∃ f, (save toml path s force).run files = .error f files) ∧
    (∀ names, files.target path = .ok names → (files.exists? path = true → force = true) →
      (∀ d, s.maxDepth = some d → d < 2 ^ 63) →
      ∃ after, (save toml path s force).run files = .ok () after) := by
  refine ⟨?_, ?_, ?_, ?_⟩
  · intro after hsave
    obtain ⟨text, htext, hwrite⟩ := exists_text_of_run_save hsave
    exact load_of_write htoml htext hwrite
  · intro hthere hforce
    rw [run_save, if_pos ⟨hthere, hforce⟩]
  · intro d hdepth hlarge
    exact run_save_of_large htoml hdepth hlarge files path force
  · intro names hplace hforce hdepth
    exact run_save_of_target htoml hplace hforce hdepth

/-- Strings with quotes of both kinds, a backslash, line ends and control characters, and a list
    that is set but empty, over a file that is no settings file. One path is absolute, the other
    goes up from the working directory. -/
theorem save_then_load_hardStrings :
    let files : FileSystem :=
      ⟨.dir [("etc", .dir [("t.toml", .file "= no".toUTF8)]), ("home", .dir [])], ["home"]⟩
    let s : Settings :=
      ⟨some [], ["a\"b'''c", "\\", "x\r\ny\n", "\x00\x7f\t", ""], some (2 ^ 63 - 1)⟩
    (∃ after, (save .lines "/etc/t.toml" s true).run files = .ok () after ∧
      load .lines after "/etc/t.toml" = .ok (some s)) ∧
    (save .lines "../etc/t.toml" s false).run files = .error (.alreadyThere "../etc/t.toml") files ∧
    ∃ f, (save .lines "new.toml" { s with maxDepth := some (2 ^ 63) } false).run files =
      .error f files := by
  intro files s
  have hplace : files.target "/etc/t.toml" = .ok ["etc", "t.toml"] := rfl
  have hthere : files.exists? "../etc/t.toml" = true := rfl
  have hdepth : ∀ d, s.maxDepth = some d → d < 2 ^ 63 := by
    intro d hd
    cases hd
    decide
  obtain ⟨hload, -, -, hsaved⟩ := save_then_load Toml.Format.lawful_lines files "/etc/t.toml" s true
  obtain ⟨-, hrefused, -, -⟩ :=
    save_then_load Toml.Format.lawful_lines files "../etc/t.toml" s false
  obtain ⟨-, -, hlarge, -⟩ := save_then_load Toml.Format.lawful_lines files "new.toml"
    { s with maxDepth := some (2 ^ 63) } false
  obtain ⟨after, hafter⟩ := hsaved _ hplace (fun _ => rfl) hdepth
  exact ⟨⟨after, hafter, hload after hafter⟩, hrefused hthere rfl, hlarge _ rfl (Nat.le_refl _)⟩

end SourceOutline.Settings
