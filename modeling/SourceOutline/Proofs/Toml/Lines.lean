import SourceOutline.Proofs.Toml.Numbers
import SourceOutline.Proofs.Toml.Strings
import SourceOutline.Toml.Format

/-
  The format with a line to a key is lawful (`Format.lawful_lines`): what it writes is read back.

  A text is a sequence of lines with a bare key and a value each. A `Line` carries the proof that
  its value is read as far as the line goes, so the lines are read one after another
  (`Line.statements?_lines`), and since their keys are distinct the table has an entry for each
  (`parse?_lines`). The fuel of the reader is measured against the length of the text at every step.
-/

namespace SourceOutline.Toml

open Toml.Parser

/-! ## Strings and lists as values -/

theorem exists_writeChars_eq_cons (cs : List Char) :
    ∃ q more, Quoted.writeChars cs = q :: more ∧ (q = '"' ∨ q = '\'') := by
  unfold Quoted.writeChars
  split
  · exact ⟨'"', _, rfl, .inl rfl⟩
  · exact ⟨'\'', _, rfl, .inr rfl⟩
  · exact ⟨'"', _, rfl, .inl rfl⟩
  · exact ⟨'\'', _, rfl, .inr rfl⟩

theorem two_le_length_writeChars (cs : List Char) : 2 ≤ (Quoted.writeChars cs).length := by
  unfold Quoted.writeChars
  split <;> simp

theorem value?_writeChars (fuel depth : Nat) (s : String) {d : Char} (hd : d ≠ '"')
    (hd' : d ≠ '\'') (rest : List Char) :
    value? (fuel + 1) depth (Quoted.writeChars s.toList ++ d :: rest) =
      some (.string s, d :: rest) := by
  have hread := Quoted.string?_writeChars s.toList hd hd' rest
  obtain ⟨q, more, hwrite, hq⟩ := exists_writeChars_eq_cons s.toList
  rw [hwrite, List.cons_append] at hread ⊢
  rcases hq with rfl | rfl
  · rw [value?, hread, String.ofList_toList]
    rfl
  · rw [value?, hread, String.ofList_toList]
    rfl

/-- A string is no blank, newline or comment that could be skipped in a list. -/
theorem skipGaps?_writeChars (cs rest : List Char) :
    skipGaps? false (Quoted.writeChars cs ++ rest) = some (Quoted.writeChars cs ++ rest) := by
  obtain ⟨q, more, hwrite, hq⟩ := exists_writeChars_eq_cons cs
  rw [hwrite, List.cons_append]
  rcases hq with rfl | rfl
  · simp [skipGaps?, isSpace]
  · simp [skipGaps?, isSpace]

/-- A string of a list is read up to what follows it. -/
theorem items?_string {fuel depth : Nat} {acc : List Toml} {cs : List Char} {s : String} {d : Char}
    {rest : List Char} (hd : d ≠ '"') (hd' : d ≠ '\'')
    (hgaps : skipGaps? false cs = some (Quoted.writeChars s.toList ++ d :: rest)) :
    (∀ more, skipGaps? false (d :: rest) = some (',' :: more) →
      items? (fuel + 2) depth acc cs = items? (fuel + 1) depth (.string s :: acc) more) ∧
    ∀ more, skipGaps? false (d :: rest) = some (']' :: more) →
      items? (fuel + 2) depth acc cs = some (.array (.string s :: acc).reverse, more) := by
  obtain ⟨q, text, hwrite, hq⟩ := exists_writeChars_eq_cons s.toList
  have hread := value?_writeChars fuel depth s hd hd' rest
  rw [hwrite, List.cons_append] at hread hgaps
  have hbracket : q ≠ ']' := by
    rintro rfl
    simp at hq
  refine ⟨?_, ?_⟩
  · intro more hmore
    simp [items?, hgaps, hbracket, hread, hmore]
  · intro more hmore
    simp [items?, hgaps, hbracket, hread, hmore]

/-- Items on a line each, from the newline before the first of them on. -/
theorem items?_lines (items : List String) {fuel depth : Nat} (hfuel : items.length < fuel)
    (acc : List Toml) (rest : List Char) :
    items? fuel depth acc ('\n' :: (items.flatMap itemChars ++ ']' :: rest)) =
      some (.array (acc.reverse ++ items.map .string), rest) := by
  induction items generalizing fuel acc with
  | nil =>
    obtain ⟨fuel, rfl⟩ : ∃ k, fuel = k + 1 := ⟨fuel - 1, by omega⟩
    simp [items?, skipGaps?, isSpace]
  | cons s items ih =>
    rw [List.length_cons] at hfuel
    obtain ⟨fuel, rfl⟩ : ∃ k, fuel = k + 2 := ⟨fuel - 2, by omega⟩
    have hgaps : skipGaps? false ('\n' :: ((s :: items).flatMap itemChars ++ ']' :: rest)) =
        some (Quoted.writeChars s.toList ++
          ',' :: '\n' :: (items.flatMap itemChars ++ ']' :: rest)) := by
      simp [itemChars, skipGaps?, isSpace, skipGaps?_writeChars]
    have hcomma (more : List Char) : skipGaps? false (',' :: more) = some (',' :: more) := by
      simp [skipGaps?, isSpace]
    have hread := ih (by omega : items.length < fuel + 1) (.string s :: acc)
    rw [(items?_string (by decide) (by decide) hgaps).1 _ (hcomma _), hread]
    simp

theorem value?_listChars (l : List String) {fuel depth : Nat} (hfuel : l.length + 1 < fuel)
    (rest : List Char) :
    value? fuel (depth + 1) (listChars l ++ rest) = some (.array (l.map .string), rest) := by
  match l with
  | [] =>
    obtain ⟨fuel, rfl⟩ : ∃ k, fuel = k + 2 := ⟨fuel - 2, by simp at hfuel; omega⟩
    simp [listChars, value?, items?, skipGaps?, isSpace]
  | [s] =>
    obtain ⟨fuel, rfl⟩ : ∃ k, fuel = k + 3 := ⟨fuel - 3, by simp at hfuel; omega⟩
    have hgaps := skipGaps?_writeChars s.toList (']' :: rest)
    have hlist : listChars [s] ++ rest = '[' :: (Quoted.writeChars s.toList ++ ']' :: rest) := by
      simp [listChars]
    rw [hlist, value?,
      (items?_string (by decide) (by decide) hgaps).2 rest (by simp [skipGaps?, isSpace])]
    rfl
  | s :: t :: l =>
    obtain ⟨fuel, rfl⟩ : ∃ k, fuel = k + 1 := ⟨fuel - 1, by omega⟩
    have hread : items? fuel depth [] ('\n' :: ((s :: t :: l).flatMap itemChars ++ ']' :: rest)) =
        some (.array ((s :: t :: l).map .string), rest) :=
      items?_lines (s :: t :: l) (by omega) [] rest
    have hlist : listChars (s :: t :: l) ++ rest =
        '[' :: '\n' :: ((s :: t :: l).flatMap itemChars ++ ']' :: rest) := by
      simp [listChars]
    rw [hlist, value?, hread]

theorem length_add_two_le_length_listChars (l : List String) :
    l.length + 2 ≤ (listChars l).length := by
  have hitems (items : List String) : items.length ≤ (items.flatMap itemChars).length := by
    induction items with
    | nil => exact Nat.le_refl 0
    | cons s items ih =>
      have hitem : 1 ≤ (itemChars s).length := by
        simp [itemChars]
      rw [List.flatMap_cons, List.length_append, List.length_cons]
      omega
  match l with
  | [] => simp [listChars]
  | [s] =>
    have hstring := two_le_length_writeChars s.toList
    simp only [listChars, List.length_cons, List.length_append, List.length_nil]
    omega
  | s :: t :: l =>
    have hlines := hitems (s :: t :: l)
    simp only [listChars, List.length_cons, List.length_append] at hlines ⊢
    omega

theorem value?_toDigits {n : Nat} (h : n < integerLimit) (fuel depth : Nat)
    (rest : List Char) :
    value? (fuel + 1) depth (Nat.toDigits 10 n ++ '\n' :: rest) =
      some (.integer n, '\n' :: rest) := by
  have hread := Scalar.read?_toDigits (d := '\n') h (by decide) rest
  obtain ⟨c, w, hdigits, hc⟩ := Scalar.exists_toDigits_eq_cons n
  have hother (x : Char) (hx : x.isDigit = false) : c ≠ x := ne_of_sorts hc hx
  rw [hdigits, List.cons_append] at hread ⊢
  rw [value?]
  · exact hread
  all_goals simp [hother]

/-! ## Lines -/

theorem skipSpaces_cons {c : Char} (h : isSpace c = false) (cs : List Char) :
    skipSpaces (c :: cs) = c :: cs := by
  simp [skipSpaces, h]

theorem skipSpaces_blank (cs : List Char) : skipSpaces (' ' :: cs) = skipSpaces cs := by
  simp [skipSpaces, isSpace]

theorem isSpace_of_isBareChar {c : Char} (h : isBareChar c = true) : isSpace c = false := by
  have hblank := ne_of_sorts h (by decide : isBareChar ' ' = false)
  have htab := ne_of_sorts h (by decide : isBareChar '\t' = false)
  simp [isSpace, hblank, htab]

theorem restOfLine?_newline (rest : List Char) : restOfLine? ('\n' :: rest) = some rest := by
  rw [restOfLine?, skipSpaces_cons (by decide)]
  rfl

/-- A line with a key and the text of a value, such that the value can be read from it. -/
structure Line where
  key : String
  text : List Char
  value : Toml
  bare : IsBareKey key
  /-- The text does not start with a blank. -/
  opening : ∃ c more, text = c :: more ∧ isSpace c = false
  /-- The text is read as the value up to the end of the line. -/
  read : ∀ fuel rest, text.length ≤ fuel →
    value? fuel Parser.depthLimit (text ++ '\n' :: rest) = some (value, '\n' :: rest)

namespace Line

def chars (l : Line) : List Char := lineChars l.key l.text

theorem length_text_lt (l : Line) : l.text.length < l.chars.length := by
  simp [chars, lineChars]
  omega

theorem chars_append (l : Line) (rest : List Char) :
    l.chars ++ rest = l.key.toList ++ ' ' :: '=' :: ' ' :: (l.text ++ '\n' :: rest) := by
  simp [chars, lineChars]

theorem exists_key_eq_cons (l : Line) :
    ∃ c more, l.key.toList = c :: more ∧ isBareChar c = true := by
  obtain ⟨hnamed, hbare⟩ := l.bare
  obtain ⟨c, more, hkey⟩ :=
    List.exists_cons_of_ne_nil fun h => hnamed (String.toList_eq_nil_iff.1 h)
  exact ⟨c, more, hkey, hbare c (by rw [hkey]; exact List.mem_cons_self)⟩

theorem exists_chars_append_eq_cons (l : Line) (rest : List Char) :
    ∃ c more, l.chars ++ rest = c :: more ∧ isBareChar c = true := by
  obtain ⟨c, more, hkey, hc⟩ := l.exists_key_eq_cons
  exact ⟨c, _, by rw [chars_append, hkey, List.cons_append], hc⟩

theorem name?_line (l : Line) (rest : List Char) :
    name? (l.key.toList ++ ' ' :: rest) = some (l.key, ' ' :: rest) := by
  have hspan := span_append_cons l.bare.2 (by decide : isBareChar ' ' = false) rest
  obtain ⟨c, more, hkey, hc⟩ := l.exists_key_eq_cons
  have hdouble := ne_of_sorts hc (by decide : isBareChar '"' = false)
  have hsingle := ne_of_sorts hc (by decide : isBareChar '\'' = false)
  have hname : String.ofList (c :: more) = l.key := by rw [← hkey, String.ofList_toList]
  rw [hkey, List.cons_append] at hspan ⊢
  rw [name?]
  · rw [hspan]
    simp [hname]
  all_goals simp [hdouble, hsingle]

theorem key?_line (l : Line) (fuel : Nat) (rest : List Char) :
    key? (fuel + 1) (l.key.toList ++ ' ' :: '=' :: rest) = some ([l.key], '=' :: rest) := by
  obtain ⟨c, more, hkey, hc⟩ := l.exists_key_eq_cons
  have hspaces : skipSpaces (l.key.toList ++ ' ' :: '=' :: rest) =
      l.key.toList ++ ' ' :: '=' :: rest := by
    rw [hkey, List.cons_append, skipSpaces_cons (isSpace_of_isBareChar hc)]
  rw [key?, hspaces, name?_line]
  simp [skipSpaces_blank, skipSpaces_cons, isSpace]

theorem statement?_line (l : Line) {fuel : Nat} (hfuel : l.text.length ≤ fuel)
    (rest : List Char) :
    statement? fuel (l.chars ++ rest) = some (.pair [l.key] l.value, rest) := by
  have hkey : key? Parser.depthLimit (l.chars ++ rest) =
      some ([l.key], '=' :: ' ' :: (l.text ++ '\n' :: rest)) := by
    rw [chars_append]
    exact l.key?_line (Parser.depthLimit - 1) _
  have hread := l.read fuel rest hfuel
  obtain ⟨c, more, htext, hc⟩ := l.opening
  have hspaces : skipSpaces (' ' :: (l.text ++ '\n' :: rest)) = l.text ++ '\n' :: rest := by
    rw [skipSpaces_blank, htext, List.cons_append, skipSpaces_cons hc]
  obtain ⟨k, name, hname, hk⟩ := l.exists_chars_append_eq_cons rest
  have hheader := ne_of_sorts hk (by decide : isBareChar '[' = false)
  rw [hname] at hkey ⊢
  rw [statement?]
  · rw [hkey]
    simp [hspaces, hread, restOfLine?_newline]
  all_goals simp [hheader]

/-- One line takes one unit of fuel and adds its pair to the statements. -/
theorem statements?_line (l : Line) {fuel : Nat} (hfuel : l.text.length ≤ fuel)
    (acc : List Statement) (rest : List Char) :
    statements? (fuel + 1) acc (l.chars ++ rest) =
      statements? fuel (.pair [l.key] l.value :: acc) rest := by
  have hread := l.statement?_line hfuel rest
  obtain ⟨k, name, hname, hk⟩ := l.exists_chars_append_eq_cons rest
  have hstart : ¬ (k = '#' ∨ k = '\n' ∨ k = '\r') := by
    rintro (rfl | rfl | rfl) <;> simp [isBareChar, Char.isAlphanum] at hk
  rw [hname] at hread ⊢
  rw [statements?, skipSpaces_cons (isSpace_of_isBareChar hk)]
  simp only [if_neg hstart, hread]

/-- Lines are read one after another; a unit of fuel to a character is enough. -/
theorem statements?_lines (lines : List Line) {fuel : Nat}
    (hfuel : (lines.flatMap chars).length < fuel) (acc : List Statement) :
    statements? fuel acc (lines.flatMap chars) =
      some (acc.reverse ++ lines.map fun l => .pair [l.key] l.value) := by
  induction lines generalizing fuel acc with
  | nil =>
    obtain ⟨fuel, rfl⟩ : ∃ k, fuel = k + 1 := ⟨fuel - 1, by omega⟩
    simp [statements?, skipSpaces]
  | cons l lines ih =>
    have hline := l.length_text_lt
    rw [List.flatMap_cons, List.length_append] at hfuel
    obtain ⟨fuel, rfl⟩ : ∃ k, fuel = k + 1 := ⟨fuel - 1, by omega⟩
    rw [List.flatMap_cons, l.statements?_line (by omega), ih (by omega)]
    simp

end Line

/-! ## The table of a document -/

/-- A pair of a new key is added at the end of the top table. -/
theorem step_pair {entries : Entries} {key : String} (hnew : key ∉ entries.map Prod.fst)
    (v : Toml) : step ([], entries) (.pair [key] v) = some ([], entries ++ [(key, v)]) := by
  have hmissing : get? entries key = none := by
    rw [get?, Keyed.find?_eq_none_iff.2 hnew]
    rfl
  have hput : put entries key v = entries ++ [(key, v)] :=
    Keyed.put_of_not_mem (a := (key, v)) hnew
  simp [step, modifyAt, addPair, hmissing, hput]

theorem foldlM_step_pairs (pairs entries : Entries)
    (hdistinct : ((entries ++ pairs).map Prod.fst).Nodup) :
    (pairs.map fun p => Statement.pair [p.1] p.2).foldlM step ([], entries) =
      some ([], entries ++ pairs) := by
  induction pairs generalizing entries with
  | nil => simp
  | cons p pairs ih =>
    have hnew : p.1 ∉ entries.map Prod.fst := by
      rw [List.map_append, List.map_cons, List.nodup_append] at hdistinct
      intro hmem
      exact hdistinct.2.2 p.1 hmem p.1 List.mem_cons_self rfl
    rw [List.map_cons, List.foldlM_cons, step_pair hnew, Option.bind_eq_bind, Option.bind_some,
      ih (entries ++ [p]) (by simpa using hdistinct)]
    simp

theorem parse?_ofList {cs : List Char} (hmark : cs.head? ≠ some '\uFEFF') :
    parse? (String.ofList cs) = (statements? (2 * cs.length + 2) [] cs).bind ofStatements? := by
  unfold parse?
  rw [String.toList_ofList]
  split
  · exact absurd rfl hmark
  · rfl

/-- A text of lines with distinct keys holds a table of their values. -/
theorem parse?_lines (lines : List Line) (hdistinct : (lines.map Line.key).Nodup) :
    parse? (String.ofList (lines.flatMap Line.chars)) =
      some (lines.map fun l => (l.key, l.value)) := by
  -- No line starts with a byte order mark, since no key does.
  have hmark : (lines.flatMap Line.chars).head? ≠ some '\uFEFF' := by
    cases lines with
    | nil => simp
    | cons l lines =>
      obtain ⟨c, more, hchars, hc⟩ := l.exists_chars_append_eq_cons (lines.flatMap Line.chars)
      have hne := ne_of_sorts hc (by decide : isBareChar '\uFEFF' = false)
      rw [List.flatMap_cons, hchars]
      simpa using hne
  have hread := Line.statements?_lines lines
    (by omega : _ < 2 * (lines.flatMap Line.chars).length + 2) []
  have hpairs := foldlM_step_pairs (lines.map fun l => (l.key, l.value)) []
    (by simpa [Function.comp_def] using hdistinct)
  rw [parse?_ofList hmark, hread, Option.bind_some, ofStatements?]
  simpa [Function.comp_def] using congrArg (Option.map Prod.snd) hpairs

/-! ## Tables -/

/-- The line of a list of strings. -/
def listLine (key : String) (hkey : IsBareKey key) (l : List String) : Line where
  key := key
  text := listChars l
  value := ofStrings l
  bare := hkey
  opening := by
    match l with
    | [] => exact ⟨'[', _, rfl, rfl⟩
    | [s] => exact ⟨'[', _, rfl, rfl⟩
    | s :: t :: l => exact ⟨'[', _, rfl, rfl⟩
  read := by
    intro fuel rest hfuel
    have hlength := length_add_two_le_length_listChars l
    exact value?_listChars l (by omega) ('\n' :: rest)

def numberLine (key : String) (hkey : IsBareKey key) (n : Nat) (h : n < integerLimit) : Line where
  key := key
  text := Nat.toDigits 10 n
  value := .integer n
  bare := hkey
  opening := by
    obtain ⟨c, w, hdigits, hc⟩ := Scalar.exists_toDigits_eq_cons n
    have hblank : c ≠ ' ' := ne_of_sorts hc (by decide)
    have htab : c ≠ '\t' := ne_of_sorts hc (by decide)
    exact ⟨c, w, hdigits, by simp [isSpace, hblank, htab]⟩
  read := by
    intro fuel rest hfuel
    have hlength := List.length_pos_of_ne_nil (Nat.toDigits_ne_nil (n := n) (b := 10))
    obtain ⟨fuel, rfl⟩ : ∃ k, fuel = k + 1 := ⟨fuel - 1, by omega⟩
    exact value?_toDigits h fuel Parser.depthLimit rest

theorem valueChars?_number (n : Nat) :
    valueChars? (.integer n) = if n < integerLimit then some (Nat.toDigits 10 n) else none := rfl

theorem strings?_ofStrings (l : List String) : (ofStrings l).strings? = some l := by
  induction l with
  | nil => rfl
  | cons s l ih =>
    rw [ofStrings, strings?] at ih ⊢
    rw [List.map_cons, List.mapM_cons, ih]
    rfl

theorem valueChars?_strings (l : List String) : valueChars? (ofStrings l) = some (listChars l) :=
  congrArg (Option.map listChars) (strings?_ofStrings l)

theorem isSome_valueChars?_iff {v : Toml} (hv : v.Flat) :
    (valueChars? v).isSome ↔ ∀ n : Nat, v = .integer n → n < integerLimit := by
  cases hv with
  | number n =>
    rw [valueChars?_number, Option.isSome_ite]
    constructor
    · intro h m hm
      rwa [← Int.ofNat.inj (Toml.integer.inj hm)]
    · exact fun h => h n rfl
  | strings l =>
    rw [valueChars?_strings]
    simp [ofStrings]

theorem exists_line_of_flat {key : String} (hkey : IsBareKey key) {v : Toml} (hv : v.Flat)
    {cs : List Char} (h : valueChars? v = some cs) :
    ∃ l : Line, (l.key, l.value) = (key, v) ∧ l.text = cs := by
  cases hv with
  | number n =>
    rw [valueChars?_number, Option.ite_none_right_eq_some] at h
    exact ⟨numberLine key hkey n h.1, rfl, Option.some.inj h.2⟩
  | strings l =>
    rw [valueChars?_strings] at h
    exact ⟨listLine key hkey l, rfl, Option.some.inj h⟩

theorem linesChars?_cons_eq_some {e : String × Toml} {t : Entries} {cs : List Char} :
    linesChars? (e :: t) = some cs ↔
      ∃ v, valueChars? e.2 = some v ∧ ∃ more, linesChars? t = some more ∧
        lineChars e.1 v ++ more = cs := by
  rw [linesChars?]
  simp only [Option.bind_eq_bind, Option.bind_eq_some_iff, Option.pure_def, Option.some.injEq]

/-- The text of a table is made of lines that hold its entries. -/
theorem exists_lines_of_flat {t : Entries} (hflat : ∀ e ∈ t, e.2.Flat)
    (hbare : ∀ e ∈ t, IsBareKey e.1) {cs : List Char} (h : linesChars? t = some cs) :
    ∃ lines : List Line, lines.map (fun l => (l.key, l.value)) = t ∧
      lines.flatMap Line.chars = cs := by
  induction t generalizing cs with
  | nil =>
    cases h
    exact ⟨[], rfl, rfl⟩
  | cons e t ih =>
    rw [List.forall_mem_cons] at hflat hbare
    obtain ⟨v, hv, more, hmore, rfl⟩ := linesChars?_cons_eq_some.1 h
    obtain ⟨l, hentry, htext⟩ := exists_line_of_flat hbare.1 hflat.1 hv
    obtain ⟨lines, hentries, hchars⟩ := ih hflat.2 hbare.2 hmore
    have hkey : l.key = e.1 := congrArg Prod.fst hentry
    refine ⟨l :: lines, ?_, ?_⟩
    · rw [List.map_cons, hentry, hentries]
    · rw [List.flatMap_cons, hchars, Line.chars, hkey, htext]

theorem isSome_linesChars?_iff {t : Entries} (hflat : ∀ e ∈ t, e.2.Flat) :
    (linesChars? t).isSome ↔ NumbersFit t := by
  induction t with
  | nil => simp [linesChars?, NumbersFit]
  | cons e t ih =>
    rw [List.forall_mem_cons] at hflat
    rw [NumbersFit, List.forall_mem_cons, ← isSome_valueChars?_iff hflat.1, ← NumbersFit,
      ← ih hflat.2]
    simp only [Option.isSome_iff_exists, linesChars?_cons_eq_some]
    constructor
    · rintro ⟨cs, v, hv, more, hmore, -⟩
      exact ⟨⟨v, hv⟩, more, hmore⟩
    · rintro ⟨⟨v, hv⟩, more, hmore⟩
      exact ⟨_, v, hv, more, hmore, rfl⟩

theorem Format.lawful_lines : Format.lines.Lawful where
  isSome_write?_iff := by
    intro t ht
    rw [lines, Option.isSome_map]
    exact isSome_linesChars?_iff ht.flat
  get?_of_write? := by
    intro t text ht hwrite
    obtain ⟨cs, hcs, rfl⟩ := Option.map_eq_some_iff.1 hwrite
    obtain ⟨lines, hentries, hchars⟩ := exists_lines_of_flat ht.flat ht.bare hcs
    have hdistinct : (lines.map Line.key).Nodup := by
      have hkeys := ht.distinct
      rw [← hentries, List.map_map] at hkeys
      exact hkeys
    refine ⟨t, ?_, fun key => rfl⟩
    change parse? (String.ofList cs) = some t
    rw [← hchars, parse?_lines lines hdistinct, hentries]

end SourceOutline.Toml
