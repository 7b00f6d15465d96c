import Mathlib.Data.List.DropRight
import Mathlib.Tactic.SplitIfs
import SourceOutline.Files.Tree

/-
  A file that was written is read back (`FileSystem.readText_of_write`), by the path that it was
  written by.

  Writing puts a file where there was a file or nothing, so every directory is still one and still
  has the entries that it had (`exists_at?_insert`). A path that could be followed can therefore be
  followed as before (`follow_insert`), and the path of the new file leads to it
  (`resolve_insert_of_isTarget`).
-/

namespace SourceOutline.FileTree

/-! ## Entries -/

theorem lookUp?_cons (k : String) (e : String × FileTree) (es : List (String × FileTree)) :
    lookUp? k (e :: es) = if e.1 = k then some e.2 else lookUp? k es := by
  by_cases h : e.1 = k <;> simp [lookUp?, h]

theorem lookUp?_putEntry (name : String) (t : FileTree) (k : String)
    (es : List (String × FileTree)) :
    lookUp? k (putEntry name t es) = if name = k then some t else lookUp? k es := by
  induction es with
  | nil => rw [putEntry, lookUp?_cons]
  | cons e es ih =>
    rw [putEntry]
    split
    · rw [lookUp?_cons]
    · split
      · next heq =>
        rw [lookUp?_cons, lookUp?_cons, ← heq]
        by_cases hk : name = k <;> simp [hk]
      · next hne =>
        rw [lookUp?_cons, ih, lookUp?_cons]
        by_cases hk : name = k
        · have hother : e.1 ≠ k := fun h => hne (hk.trans h.symm)
          simp [hk, hother]
        · simp [hk]

theorem at?_append (t : FileTree) (names more : List String) :
    t.at? (names ++ more) = (t.at? names).bind (·.at? more) := by
  induction names generalizing t with
  | nil => rw [List.nil_append, at?, Option.bind_some]
  | cons name names ih =>
    cases t with
    | file content => rw [List.cons_append, at?, at?, Option.bind_none]
    | dir entries =>
      rw [List.cons_append, at?, at?, Option.bind_assoc]
      congr 1
      funext t
      exact ih t

/-! ## What insertion keeps -/

theorem at?_insert_self (new : FileTree) (names : List String) (t : FileTree) :
    (insert new names t).at? names = some new := by
  induction names generalizing t with
  | nil => rw [insert, at?]
  | cons name names ih =>
    cases t <;> rw [insert, at?, lookUp?_putEntry, if_pos rfl, Option.bind_some, ih]

theorem at?_file_ne_dir (content : ByteArray) (names : List String)
    (entries : List (String × FileTree)) : (file content).at? names ≠ some (.dir entries) := by
  cases names <;> simp [at?]

/-- Where no directory is replaced, every directory stays one and keeps the names of its
    entries. -/
theorem exists_at?_insert (new : FileTree) {names : List String} {root : FileTree}
    (hnames : ∀ entries, root.at? names ≠ some (.dir entries)) {place : List String}
    {entries : List (String × FileTree)} (hplace : root.at? place = some (.dir entries)) :
    ∃ entries', (insert new names root).at? place = some (.dir entries') ∧
      ∀ k, (lookUp? k entries).isSome → (lookUp? k entries').isSome := by
  induction names generalizing root place with
  | nil =>
    cases root with
    | file content => exact absurd hplace (at?_file_ne_dir content place entries)
    | dir top => exact absurd rfl (hnames top)
  | cons name names ih =>
    cases root with
    | file content => exact absurd hplace (at?_file_ne_dir content place entries)
    | dir top =>
      rw [insert]
      cases place with
      | nil =>
        rw [at?] at hplace
        cases hplace
        refine ⟨_, rfl, fun k hk => ?_⟩
        rw [lookUp?_putEntry]
        split
        · rfl
        · exact hk
      | cons k place =>
        rw [at?, Option.bind_eq_some_iff] at hplace
        obtain ⟨t, hk, ht⟩ := hplace
        rw [at?, lookUp?_putEntry]
        by_cases heq : name = k
        · -- Below the name that is changed, its own tree decides.
          subst heq
          have hbelow : ∀ entries, t.at? names ≠ some (.dir entries) := by
            intro es hes
            apply hnames es
            rw [at?, hk, Option.bind_some, hes]
          rw [if_pos rfl, hk, Option.getD_some, Option.bind_some]
          exact ih hbelow ht
        · rw [if_neg heq, hk, Option.bind_some]
          exact ⟨entries, ht, fun _ h => h⟩

/-! ## Paths -/

/-- A path is followed part by part. -/
theorem follow_cons (root : FileTree) (start : List String) (part : String)
    (parts : List String) :
    root.follow start (part :: parts) = root.follow start [part] >>= (root.follow · parts) := by
  simp only [follow]
  split
  · split_ifs <;> rfl
  · rfl
  · rfl

theorem follow_append {root : FileTree} {start mid parts : List String}
    (h : root.follow start parts = .ok mid) (more : List String) :
    root.follow start (parts ++ more) = root.follow mid more := by
  induction parts generalizing start with
  | nil =>
    rw [follow] at h
    cases h
    rfl
  | cons part parts ih =>
    rw [follow_cons] at h
    rw [List.cons_append, follow_cons]
    cases hstep : root.follow start [part] with
    | error f =>
      rw [hstep] at h
      cases h
    | ok next =>
      rw [hstep] at h
      exact ih h

theorem follow_insert_part (new : FileTree) {names : List String} {root : FileTree}
    (hnames : ∀ entries, root.at? names ≠ some (.dir entries)) {start stop : List String}
    {part : String} (h : root.follow start [part] = .ok stop) :
    (insert new names root).follow start [part] = .ok stop := by
  rw [follow] at h
  split at h
  · next entries hstart =>
    obtain ⟨entries', hstart', hkept⟩ := exists_at?_insert new hnames hstart
    rw [follow, hstart']
    simp only [follow] at h ⊢
    split_ifs at h with hdot hup hlong hfound
    · rw [if_pos hdot, h]
    · rw [if_neg hdot, if_pos hup, h]
    · rw [if_neg hdot, if_neg hup, if_neg hlong, if_pos (hkept part hfound), h]
  · cases h
  · cases h

theorem follow_insert (new : FileTree) {names : List String} {root : FileTree}
    (hnames : ∀ entries, root.at? names ≠ some (.dir entries)) {start parts stop : List String}
    (h : root.follow start parts = .ok stop) :
    (insert new names root).follow start parts = .ok stop := by
  induction parts generalizing start with
  | nil => rwa [follow] at h ⊢
  | cons part parts ih =>
    rw [follow_cons] at h ⊢
    cases hstep : root.follow start [part] with
    | error f =>
      rw [hstep] at h
      cases h
    | ok next =>
      rw [hstep] at h
      rw [follow_insert_part new hnames hstep]
      exact ih h

/-- Parts that are not shortened by dropping empty ones from their end do not end in one. -/
theorem eq_of_rdropWhile {parts : List String} {name : String}
    (hlast : (parts.rdropWhile (· = "")).getLast? = some name)
    (hlength : ¬ (parts.rdropWhile (· = "")).length < parts.length) :
    parts = (parts.rdropWhile (· = "")).dropLast ++ [name] ∧ name ≠ "" := by
  have hsame : parts.rdropWhile (· = "") = parts :=
    (List.rdropWhile_prefix _ _).eq_of_length_le (Nat.not_lt.1 hlength)
  rw [hsame] at hlast ⊢
  have hne : parts ≠ [] := by
    rintro rfl
    cases hlast
  rw [List.getLast?_eq_some_getLast hne, Option.some.injEq] at hlast
  refine ⟨?_, ?_⟩
  · rw [← hlast, List.dropLast_append_getLast]
  · have hfull := List.rdropWhile_eq_self_iff.1 hsame hne
    rw [hlast] at hfull
    simpa using hfull

end SourceOutline.FileTree

namespace SourceOutline.FileSystem

open FileTree

/-- A place for a file: the directory `parent` is there, and holds no directory of that name. -/
structure IsTarget (fs : FileSystem) (path : String) (parent : List String) (name : String) :
    Prop where
  sound : pathFault? path = none
  follow : ∃ above, Path.parts path = above ++ [name] ∧
    fs.root.follow (fs.start path) above = .ok parent
  isDir : ∃ entries, fs.root.at? parent = some (.dir entries)
  free : ∀ entries, fs.root.at? (parent ++ [name]) ≠ some (.dir entries)
  named : name ≠ "" ∧ name ≠ "." ∧ name ≠ ".."
  short : name.utf8ByteSize ≤ maxName

theorem isTarget_of_target {fs : FileSystem} {path : String} {names : List String}
    (h : fs.target path = .ok names) :
    ∃ parent name, names = parent ++ [name] ∧ fs.IsTarget path parent name := by
  unfold target at h
  cases hsound : pathFault? path with
  | some f =>
    rw [hsound] at h
    cases h
  | none =>
    rw [hsound] at h
    change (fs.root.follow (fs.start path)
      ((Path.parts path).rdropWhile (· = "")).dropLast >>= _) = _ at h
    cases hfollow : fs.root.follow (fs.start path)
        ((Path.parts path).rdropWhile (· = "")).dropLast with
    | error f =>
      rw [hfollow] at h
      cases h
    | ok parent =>
      rw [hfollow] at h
      simp only [bind, Except.bind] at h
      split at h
      · next entries name hparent hlast =>
        split_ifs at h with hplain hlong
        obtain ⟨hdot, hrest⟩ := not_or.1 hplain
        obtain ⟨hup, hlength⟩ := not_or.1 hrest
        obtain ⟨hparts, hempty⟩ := eq_of_rdropWhile hlast hlength
        split at h
        · cases h
        · next hfree =>
          cases h
          refine ⟨parent, name, rfl, hsound, ⟨_, hparts, hfollow⟩, ⟨entries, hparent⟩, ?_,
            ⟨hempty, hdot, hup⟩, Nat.not_lt.1 hlong⟩
          intro below hbelow
          rw [at?_append, hparent, Option.bind_some, at?, Option.bind_eq_some_iff] at hbelow
          obtain ⟨t, hlook, ht⟩ := hbelow
          rw [at?] at ht
          cases ht
          exact hfree below hlook
      · cases h
      · cases h
      · cases h

theorem resolve_insert_of_isTarget {fs : FileSystem} {path : String} {parent : List String}
    {name : String} (h : fs.IsTarget path parent name) (new : FileTree) :
    { fs with root := insert new (parent ++ [name]) fs.root }.resolve path =
      .ok (parent ++ [name]) := by
  obtain ⟨above, hparts, habove⟩ := h.follow
  obtain ⟨entries, hparent⟩ := h.isDir
  obtain ⟨entries', hparent', -⟩ := exists_at?_insert new h.free hparent
  have hfound : (lookUp? name entries').isSome := by
    have hnew := at?_insert_self new (parent ++ [name]) fs.root
    rw [at?_append, hparent', Option.bind_some, at?] at hnew
    cases hlook : lookUp? name entries' with
    | none => simp [hlook] at hnew
    | some t => rfl
  obtain ⟨hempty, hdot, hup⟩ := h.named
  rw [resolve, h.sound, hparts]
  -- the start of the path does not depend on the tree
  change (insert new (parent ++ [name]) fs.root).follow (fs.start path) (above ++ [name]) = _
  rw [follow_append (follow_insert new h.free habove), FileTree.follow, hparent']
  simp only [hempty, hdot, hup, or_self, if_false, Nat.not_lt.2 h.short, hfound, if_true]
  rw [FileTree.follow]

/-- A file that was written is there, with its content. -/
theorem read_of_write {fs after : FileSystem} {path : String} {content : ByteArray}
    (h : fs.write path content = .ok after) :
    after.exists? path = true ∧ after.read path = .ok content := by
  cases htarget : fs.target path with
  | error f =>
    rw [write, htarget] at h
    cases h
  | ok names =>
    rw [write, htarget] at h
    cases h
    obtain ⟨parent, name, rfl, hplace⟩ := isTarget_of_target htarget
    have hresolve := resolve_insert_of_isTarget hplace (.file content)
    have hat := at?_insert_self (.file content) (parent ++ [name]) fs.root
    refine ⟨?_, ?_⟩
    · rw [exists?, hresolve]
    · simp only [read, hresolve, bind, Except.bind, hat]
      rfl

theorem readText_of_write {fs after : FileSystem} {path text : String}
    (h : fs.write path text.toUTF8 = .ok after) : after.readText path = .ok text := by
  have htext : String.fromUTF8? text.toUTF8 = some text := dif_pos text.isValidUTF8
  simp only [readText, (read_of_write h).2, bind, Except.bind, htext]
  rfl

end SourceOutline.FileSystem
