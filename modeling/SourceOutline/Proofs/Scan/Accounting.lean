import Mathlib.Algebra.Ring.Nat
import Mathlib.Data.List.Forall2
import SourceOutline.Proofs.Outline.Recursion
import SourceOutline.Scan.Report

/-
  A scan accounts for every file.

  What comes of a file depends on the file, the grammars and the parser alone, and not on what was
  scanned before (`add_eq_append`). So the report of some entries is put together from the reports
  of the single ones, in their order (`ofEntries_eq_iff`). What a single entry adds is said by
  `Contributes`: one file skipped, failed or outlined, and nothing for whatever is no file.

  An outline is here what plain recursion without a limit gives.
-/

namespace SourceOutline

/-! ## The grammar for a path -/

namespace Registry

/-- Of the grammars in the order of registration, `g` is the first that handles the path. -/
def FirstHandler (r : Registry) (path : String) (g : Grammar) : Prop :=
  g.canHandle path = true ∧ ∃ before after, r.grammars = before ++ g :: after ∧
    ∀ other ∈ before, other.canHandle path = false

theorem findForPath?_eq_some_iff {r : Registry} {path : String} {g : Grammar} :
    r.findForPath? path = some g ↔ r.FirstHandler path g := by
  unfold findForPath? FirstHandler
  simp only [List.find?_eq_some_iff_append, Bool.not_eq_true']

theorem findForPath?_eq_none_iff {r : Registry} {path : String} :
    r.findForPath? path = none ↔ ∀ g ∈ r.grammars, g.canHandle path = false := by
  unfold findForPath?
  simp only [List.find?_eq_none, Bool.not_eq_true]

end Registry

/-! ## What comes of one file -/

namespace Text

theorem fromUTF8?_eq_some_iff {bytes : ByteArray} {text : String} :
    String.fromUTF8? bytes = some text ↔ bytes = text.toUTF8 := by
  constructor
  · intro h
    unfold String.fromUTF8? at h
    split at h
    · rw [← Option.some.inj h]
      rfl
    · cases h
  · rintro rfl
    exact dif_pos text.isValidUTF8

theorem fromUTF8?_eq_none_iff {bytes : ByteArray} :
    String.fromUTF8? bytes = none ↔ ∀ text : String, bytes ≠ text.toUTF8 := by
  simp only [Option.eq_none_iff_forall_ne_some, ne_eq, fromUTF8?_eq_some_iff]

end Text

namespace Grammar

open Text

/-- The root of a tree for a text, with an entity. -/
def rootElement (g : Grammar) (text : String) (tree : SyntaxTree) (entity : Entity) :
    Element (TreeNode ((ParsedSource.ofText text tree).context g.table)) :=
  ⟨⟨tree⟩, entity⟩

/-- What comes of a file with a grammar: a fault in reading, parsing, wrapping the root or
    rendering it, whichever is first, or the outline. -/
inductive Yields (g : Grammar) (parse : SourceParser) (path : String) :
    Except FileFault ByteArray → Except SourceFault Outline → Prop where
  | unread (f : FileFault) : Yields g parse path (.error f) (.error (.reading path f))
  | notText {bytes : ByteArray} (hbytes : ∀ text : String, bytes ≠ text.toUTF8) :
      Yields g parse path (.ok bytes) (.error (.reading path .notText))
  | unparsed {text : String} {f : ParseFault} (hparse : parse g text = .error f) :
      Yields g parse path (.ok text.toUTF8) (.error (.parsing g.name f))
  | unwrapped {text : String} {tree : SyntaxTree} (hparse : parse g text = .ok tree)
      (hentity : g.metamodel.entity? tree.kind = none) :
      Yields g parse path (.ok text.toUTF8) (.error (.element (.unknownEntity tree.kind)))
  | unrendered {text : String} {tree : SyntaxTree} {entity : Entity} {f : Fault}
      (hparse : parse g text = .ok tree)
      (hentity : g.metamodel.entity? tree.kind = some entity)
      (hrender : ((g.rootElement text tree entity).plainOutline g.metamodel none).run =
        some (.error f)) :
      Yields g parse path (.ok text.toUTF8) (.error (.element f))
  | rendered {text : String} {tree : SyntaxTree} {entity : Entity} {o : Outline}
      (hparse : parse g text = .ok tree)
      (hentity : g.metamodel.entity? tree.kind = some entity)
      (hrender : ((g.rootElement text tree entity).plainOutline g.metamodel none).run =
        some (.ok o)) :
      Yields g parse path (.ok text.toUTF8) (.ok o)

variable {g : Grammar} {parse : SourceParser} {path text : String} {tree : SyntaxTree}

/-- Trees come to an end, so plain recursion does. -/
theorem plainOutline_rootElement (g : Grammar) (text : String) (tree : SyntaxTree)
    (entity : Entity) :
    ((g.rootElement text tree entity).plainOutline g.metamodel none).run =
      some (TreeNode.outline g.metamodel none (g.rootElement text tree entity)) := by
  have hend := TreeNode.finiteDescent g.metamodel (g.rootElement text tree entity)
  rw [← TreeNode.outline_eq_some, Element.outline,
    Element.outlineAt_eq_plainOutline (fun _ => hend), Option.map_none]

theorem outline_of_unwrapped (hparse : parse g text = .ok tree)
    (hentity : g.metamodel.entity? tree.kind = none) :
    g.outline parse none text = .error (.element (.unknownEntity tree.kind)) := by
  have hwrap : Element.wrap g.metamodel
      (⟨tree⟩ : TreeNode ((ParsedSource.ofText text tree).context g.table)) =
        .error (.unknownEntity tree.kind) := by
    unfold Element.wrap
    simp only [SyntaxNode.rule, hentity]
  simp only [outline, hparse, hwrap]

theorem outline_of_wrapped {entity : Entity} (hparse : parse g text = .ok tree)
    (hentity : g.metamodel.entity? tree.kind = some entity) :
    g.outline parse none text =
      (TreeNode.outline g.metamodel none (g.rootElement text tree entity)).mapError .element := by
  have hwrap : Element.wrap g.metamodel
      (⟨tree⟩ : TreeNode ((ParsedSource.ofText text tree).context g.table)) =
        .ok (g.rootElement text tree entity) := by
    unfold Element.wrap
    simp only [SyntaxNode.rule, hentity]
    rfl
  simp only [outline, hparse, hwrap]
  cases TreeNode.outline g.metamodel none (g.rootElement text tree entity) <;> rfl

theorem outlineOfRead_text (limit : Option Nat) (text : String) :
    g.outlineOfRead parse limit path (.ok text.toUTF8) = g.outline parse limit text := by
  simp only [outlineOfRead, fromUTF8?_eq_some_iff.2 rfl]

theorem yields_outlineOfRead (g : Grammar) (parse : SourceParser) (path : String)
    (content : Except FileFault ByteArray) :
    g.Yields parse path content (g.outlineOfRead parse none path content) := by
  cases content with
  | error f => exact .unread f
  | ok bytes =>
    cases htext : String.fromUTF8? bytes with
    | none =>
      rw [outlineOfRead, htext]
      exact .notText (fromUTF8?_eq_none_iff.1 htext)
    | some text =>
      obtain rfl := fromUTF8?_eq_some_iff.1 htext
      rw [outlineOfRead_text]
      cases hparse : parse g text with
      | error f =>
        rw [outline, hparse]
        exact .unparsed hparse
      | ok tree =>
        cases hentity : g.metamodel.entity? tree.kind with
        | none =>
          rw [outline_of_unwrapped hparse hentity]
          exact .unwrapped hparse hentity
        | some entity =>
          have hplain := plainOutline_rootElement g text tree entity
          rw [outline_of_wrapped hparse hentity]
          cases hrender : TreeNode.outline g.metamodel none (g.rootElement text tree entity) with
          | error f => exact .unrendered hparse hentity (hplain.trans (congrArg some hrender))
          | ok o => exact .rendered hparse hentity (hplain.trans (congrArg some hrender))

theorem outlineOfRead_of_yields {content : Except FileFault ByteArray}
    {r : Except SourceFault Outline} (h : g.Yields parse path content r) :
    g.outlineOfRead parse none path content = r := by
  cases h with
  | unread f => rfl
  | notText hbytes => rw [outlineOfRead, fromUTF8?_eq_none_iff.2 hbytes]
  | unparsed hparse => rw [outlineOfRead_text, outline, hparse]
  | unwrapped hparse hentity => rw [outlineOfRead_text, outline_of_unwrapped hparse hentity]
  | unrendered hparse hentity hrender =>
    rw [plainOutline_rootElement] at hrender
    rw [outlineOfRead_text, outline_of_wrapped hparse hentity, Option.some.inj hrender]
    rfl
  | rendered hparse hentity hrender =>
    rw [plainOutline_rootElement] at hrender
    rw [outlineOfRead_text, outline_of_wrapped hparse hentity, Option.some.inj hrender]
    rfl

/-- What comes of a file is one thing and no other. -/
theorem outlineOfRead_eq_iff {content : Except FileFault ByteArray}
    {r : Except SourceFault Outline} :
    g.outlineOfRead parse none path content = r ↔ g.Yields parse path content r :=
  ⟨fun h => h ▸ yields_outlineOfRead g parse path content, outlineOfRead_of_yields⟩

end Grammar

/-! ## What one entry adds -/

/-- Whether an entry is a file. -/
def WalkEntry.isFile : WalkEntry → Bool
  | .file _ _ => true
  | .other _ => false

namespace ScanReport

/-- What an entry adds to a report. -/
inductive Contributes (registry : Registry) (parse : SourceParser) :
    WalkEntry → ScanReport → Prop where
  | other (path : String) : Contributes registry parse (.other path) ⟨[], [], 0⟩
  | skipped {path : String} {content : Except FileFault ByteArray}
      (hnone : ∀ g ∈ registry.grammars, g.canHandle path = false) :
      Contributes registry parse (.file path content) ⟨[], [], 1⟩
  | failed {path : String} {content : Except FileFault ByteArray} {g : Grammar} {f : SourceFault}
      (hfirst : registry.FirstHandler path g) (hyields : g.Yields parse path content (.error f)) :
      Contributes registry parse (.file path content) ⟨[], [(path, f.fullMessage)], 0⟩
  | outlined {path : String} {content : Except FileFault ByteArray} {g : Grammar} {o : Outline}
      (hfirst : registry.FirstHandler path g) (hyields : g.Yields parse path content (.ok o)) :
      Contributes registry parse (.file path content) ⟨[⟨path, g.name, o.count⟩], [], 0⟩

/-- The report is made up of what the entries add, part by part in their order. -/
def Accounts (registry : Registry) (parse : SourceParser) (entries : List WalkEntry)
    (report : ScanReport) : Prop :=
  ∃ parts, List.Forall₂ (Contributes registry parse) entries parts ∧
    report.files = parts.flatMap files ∧ report.failures = parts.flatMap failures ∧
    report.skipped = (parts.map skipped).sum

/-- The number of files that a report accounts for, with or without an outline. -/
def fileCount (report : ScanReport) : Nat :=
  report.files.length + report.failures.length + report.skipped

/-! ## Reports side by side -/

@[simp] theorem files_append (a b : ScanReport) : (a ++ b).files = a.files ++ b.files := rfl

@[simp] theorem failures_append (a b : ScanReport) :
    (a ++ b).failures = a.failures ++ b.failures := rfl

@[simp] theorem skipped_append (a b : ScanReport) : (a ++ b).skipped = a.skipped + b.skipped := rfl

theorem append_assoc (a b c : ScanReport) : a ++ b ++ c = a ++ (b ++ c) :=
  ScanReport.ext (List.append_assoc ..) (List.append_assoc ..) (Nat.add_assoc ..)

theorem empty_append (a : ScanReport) : ∅ ++ a = a :=
  ScanReport.ext (List.nil_append _) (List.nil_append _) (Nat.zero_add _)

theorem append_empty (a : ScanReport) : a ++ ∅ = a :=
  ScanReport.ext (List.append_nil _) (List.append_nil _) rfl

theorem fileCount_append (a b : ScanReport) : (a ++ b).fileCount = a.fileCount + b.fileCount := by
  simp only [fileCount, files_append, failures_append, skipped_append, List.length_append]
  omega

theorem totalElements_eq (report : ScanReport) :
    report.totalElements = (report.files.map FileReport.elements).sum := by
  unfold totalElements
  induction report.files with
  | nil => rfl
  | cons f files ih => rw [List.foldr_cons, List.map_cons, List.sum_cons, ih]

theorem totalElements_append (a b : ScanReport) :
    (a ++ b).totalElements = a.totalElements + b.totalElements := by
  rw [totalElements_eq, totalElements_eq, totalElements_eq, files_append, List.map_append,
    List.sum_append]

/-! ## One entry -/

variable {registry : Registry} {parse : SourceParser}

theorem exists_contributes (registry : Registry) (parse : SourceParser) (entry : WalkEntry) :
    ∃ part, Contributes registry parse entry part := by
  cases entry with
  | other path => exact ⟨_, .other path⟩
  | file path content =>
    cases hfind : registry.findForPath? path with
    | none => exact ⟨_, .skipped (Registry.findForPath?_eq_none_iff.1 hfind)⟩
    | some g =>
      have hfirst := Registry.findForPath?_eq_some_iff.1 hfind
      have hyields := Grammar.yields_outlineOfRead g parse path content
      cases hread : g.outlineOfRead parse none path content with
      | error f => exact ⟨_, .failed hfirst (hread ▸ hyields)⟩
      | ok o => exact ⟨_, .outlined hfirst (hread ▸ hyields)⟩

/-- An entry adds its part, and leaves what has been reported as it is. -/
theorem Contributes.add_eq {entry : WalkEntry} {part : ScanReport}
    (h : Contributes registry parse entry part) (report : ScanReport) :
    add registry parse report entry = report ++ part := by
  cases h with
  | other path => exact (append_empty report).symm
  | skipped hnone =>
    simp only [add, Registry.findForPath?_eq_none_iff.2 hnone]
    exact ScanReport.ext (List.append_nil _).symm (List.append_nil _).symm rfl
  | failed hfirst hyields =>
    simp only [add, Registry.findForPath?_eq_some_iff.2 hfirst,
      Grammar.outlineOfRead_eq_iff.2 hyields]
    exact ScanReport.ext (List.append_nil _).symm rfl rfl
  | outlined hfirst hyields =>
    simp only [add, Registry.findForPath?_eq_some_iff.2 hfirst,
      Grammar.outlineOfRead_eq_iff.2 hyields]
    exact ScanReport.ext rfl (List.append_nil _).symm rfl

theorem Contributes.ofEntries_eq {entry : WalkEntry} {part : ScanReport}
    (h : Contributes registry parse entry part) : ofEntries registry parse [entry] = part :=
  (h.add_eq ∅).trans (empty_append part)

/-- Every file counts once. -/
theorem Contributes.fileCount_eq {entry : WalkEntry} {part : ScanReport}
    (h : Contributes registry parse entry part) :
    part.fileCount = if entry.isFile then 1 else 0 := by
  cases h <;> rfl

/-! ## All entries -/

theorem foldl_add (entries : List WalkEntry) (report : ScanReport) :
    entries.foldl (add registry parse) report = report ++ ofEntries registry parse entries := by
  unfold ofEntries
  induction entries generalizing report with
  | nil => exact (append_empty report).symm
  | cons entry entries ih =>
    -- the first entry adds its part to either report, and the rest comes behind it
    obtain ⟨part, hpart⟩ := exists_contributes registry parse entry
    rw [List.foldl_cons, List.foldl_cons, ih, ih (add registry parse ∅ entry), hpart.add_eq,
      hpart.add_eq, empty_append, append_assoc]

theorem ofEntries_append (entries more : List WalkEntry) :
    ofEntries registry parse (entries ++ more) =
      ofEntries registry parse entries ++ ofEntries registry parse more := by
  conv_lhs => unfold ofEntries
  rw [List.foldl_append, foldl_add]
  rfl

theorem Contributes.ofEntries_cons {entry : WalkEntry} {part : ScanReport}
    (h : Contributes registry parse entry part) (entries : List WalkEntry) :
    ofEntries registry parse (entry :: entries) = part ++ ofEntries registry parse entries := by
  rw [← List.singleton_append, ofEntries_append, h.ofEntries_eq]

theorem accounts_ofEntries (registry : Registry) (parse : SourceParser)
    (entries : List WalkEntry) :
    Accounts registry parse entries (ofEntries registry parse entries) := by
  induction entries with
  | nil => exact ⟨[], .nil, rfl, rfl, rfl⟩
  | cons entry entries ih =>
    obtain ⟨part, hpart⟩ := exists_contributes registry parse entry
    obtain ⟨parts, hparts, hfiles, hfailures, hskipped⟩ := ih
    refine ⟨part :: parts, .cons hpart hparts, ?_⟩
    rw [hpart.ofEntries_cons, files_append, failures_append, skipped_append, hfiles, hfailures,
      hskipped]
    exact ⟨rfl, rfl, rfl⟩

/-- An entry adds one part only, so nothing else accounts for the entries. -/
theorem Accounts.unique {entries : List WalkEntry} {a b : ScanReport}
    (ha : Accounts registry parse entries a) (hb : Accounts registry parse entries b) : a = b := by
  obtain ⟨parts, hparts, hfiles, hfailures, hskipped⟩ := ha
  obtain ⟨parts', hparts', hfiles', hfailures', hskipped'⟩ := hb
  have hsame : parts = parts' :=
    List.right_unique_forall₂' (fun _ _ _ h h' => h.ofEntries_eq.symm.trans h'.ofEntries_eq)
      hparts hparts'
  subst hsame
  exact ScanReport.ext (hfiles.trans hfiles'.symm) (hfailures.trans hfailures'.symm)
    (hskipped.trans hskipped'.symm)

theorem ofEntries_eq_iff {entries : List WalkEntry} {report : ScanReport} :
    ofEntries registry parse entries = report ↔ Accounts registry parse entries report :=
  ⟨fun h => h ▸ accounts_ofEntries registry parse entries,
    fun h => (accounts_ofEntries registry parse entries).unique h⟩

theorem fileCount_ofEntries (entries : List WalkEntry) :
    (ofEntries registry parse entries).fileCount = (entries.filter WalkEntry.isFile).length := by
  induction entries with
  | nil => rfl
  | cons entry entries ih =>
    obtain ⟨part, hpart⟩ := exists_contributes registry parse entry
    rw [hpart.ofEntries_cons, fileCount_append, hpart.fileCount_eq, ih, List.filter_cons]
    split
    · rw [List.length_cons, Nat.add_comm]
    · exact Nat.zero_add _

/-- The report of some entries is made up of what each of them adds by itself: a file is skipped,
    fails or is outlined, and anything else adds nothing. So every file is counted once, the report
    of two sequences is that of the first followed by that of the second, and what a scan reports
    is the sum over its walk. -/
theorem scan_accounts (registry : Registry) (parse : SourceParser) :
    (∀ entries report, ofEntries registry parse entries = report ↔
      Accounts registry parse entries report) ∧
    (∀ entries, (ofEntries registry parse entries).fileCount =
      (entries.filter WalkEntry.isFile).length) ∧
    (∀ entries more, ofEntries registry parse (entries ++ more) =
        ofEntries registry parse entries ++ ofEntries registry parse more ∧
      (ofEntries registry parse (entries ++ more)).totalElements =
        (ofEntries registry parse entries).totalElements +
          (ofEntries registry parse more).totalElements) ∧
    ∀ files user root settings,
      Accounts registry parse ((Settings.walker settings files user root).walk root)
        (scan files user root registry parse settings) := by
  refine ⟨fun _ _ => ofEntries_eq_iff, fileCount_ofEntries, fun entries more => ?_, ?_⟩
  · refine ⟨ofEntries_append entries more, ?_⟩
    rw [ofEntries_append, totalElements_append]
  · exact fun files user root settings => accounts_ofEntries registry parse _

/-- Two grammars for one extension, the second without entities, and files that fail in every way
    but the last of them, which no grammar handles. -/
example :
    let registry : Registry :=
      ⟨[.ofTypes "One" ["x"] [{ kind := "a", named := true }], .ofTypes "Two" ["x", "y"] []]⟩
    let parse : SourceParser := fun _ text =>
      if text = "two" then .ok (.node ⟨"a", true, none, 0, 3, 0, 0⟩ []) else .error .noTree
    ofEntries registry parse [.other "d", .file "d/a.x" (.ok "one".toUTF8),
        .file "d/b.y" (.ok "two".toUTF8), .file "d/c.x" (.error .notFound),
        .file "d/f.x" (.ok ⟨#[255]⟩), .file "d/e" (.ok ⟨#[]⟩)] =
      ⟨[], [("d/a.x", "Parse error: One parser produced no tree"),
        ("d/b.y", "No entity registered for rule 'a'"),
        ("d/c.x", "reading d/c.x: No such file or directory (os error 2)"),
        ("d/f.x", "reading d/f.x: stream did not contain valid UTF-8")], 1⟩ := by
  decide +kernel

end ScanReport

end SourceOutline
