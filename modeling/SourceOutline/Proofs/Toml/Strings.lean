import SourceOutline.Toml.Quoted

/-
  A string that is written as TOML is read back as it was, whatever its characters
  (`Quoted.string?_writeChars`).

  Each of the four forms has a reader of its own, and what a reader does at the next character or
  escape is said once (`basic?_escapeChar`, `multiBasic?_escapeChar`). Between triple quotes the
  quotes of the text are the difficulty: up to two of them may stand before the closing three, so
  the inductions carry a run of quotes that have been met but not yet read (`multiBasic?_text`,
  `multiLiteral?_text`). The forms without escapes fit by the choice of the form (`formOf_literal`,
  `formOf_multiLiteral`).
-/

namespace SourceOutline.Toml.Quoted

/-! ## Escapes -/

theorem hexDigit?_upperHexDigit {n : Nat} (h : n < 16) :
    Json.Parser.hexDigit? (upperHexDigit n) = some n := by
  have hall : ∀ n < 16, Json.Parser.hexDigit? (upperHexDigit n) = some n := by decide
  exact hall n h

/-- A letter of an escape is none of the characters that are no such letters. -/
theorem ne_of_escaped? {e x y : Char} (h : escaped? e = some x) (hy : escaped? y = none) :
    e ≠ y := by
  rintro rfl
  rw [h] at hy
  cases hy

theorem codePoint?_hexDigits (c : Char) (h : c.toNat < 256) :
    codePoint? ['0', '0', upperHexDigit (c.toNat / 16), upperHexDigit (c.toNat % 16)] = some c := by
  have hzero : Json.Parser.hexDigit? '0' = some 0 := by decide
  have hhigh : Json.Parser.hexDigit? (upperHexDigit (c.toNat / 16)) = some (c.toNat / 16) :=
    hexDigit?_upperHexDigit (by omega)
  have hlow : Json.Parser.hexDigit? (upperHexDigit (c.toNat % 16)) = some (c.toNat % 16) :=
    hexDigit?_upperHexDigit (by omega)
  have hvalue : hexValue? ['0', '0', upperHexDigit (c.toNat / 16), upperHexDigit (c.toNat % 16)]
      = some c.toNat := by
    simp [hexValue?, hzero, hhigh, hlow]
    omega
  have hvalid : c.toNat.isValidChar := c.valid
  rw [codePoint?, hvalue]
  simp [hvalid]

theorem toNat_lt_of_not_isPlain {c : Char} (h : isPlain c = false) : c.toNat < 128 := by
  simp [isPlain] at h
  omega

/-- A character is escaped as it is, by a letter, or by its code point. -/
theorem escapeChar_cases (c : Char) :
    (isPlain c = true ∧ c ≠ '\\' ∧ escapeChar c = [c]) ∨
      (∃ e, escaped? e = some c ∧ escapeChar c = ['\\', e]) ∨
      ∃ x y, codePoint? ['0', '0', x, y] = some c ∧ escapeChar c = ['\\', 'u', '0', '0', x, y] := by
  unfold escapeChar
  split
  · next h =>
    subst h
    exact .inr (.inl ⟨'\\', rfl, rfl⟩)
  split
  · next h => exact .inr (.inl ⟨'t', h ▸ rfl, rfl⟩)
  split
  · next h => exact .inr (.inl ⟨'b', h ▸ rfl, rfl⟩)
  split
  · next h => exact .inr (.inl ⟨'f', h ▸ rfl, rfl⟩)
  split
  · next h => exact .inr (.inl ⟨'r', h ▸ rfl, rfl⟩)
  split
  · next hslash _ _ _ _ hplain => exact .inl ⟨hplain, hslash, rfl⟩
  · next hplain =>
    have hsmall := toNat_lt_of_not_isPlain (by simpa using hplain)
    exact .inr (.inr ⟨_, _, codePoint?_hexDigits c (by omega), rfl⟩)

/-! ## Double quotes on one line -/

theorem basic?_letter {e x : Char} (h : escaped? e = some x) (acc cs : List Char) :
    basic? acc ('\\' :: e :: cs) = basic? (x :: acc) cs := by
  have hu : e ≠ 'u' := ne_of_escaped? h rfl
  have hU : e ≠ 'U' := ne_of_escaped? h rfl
  rw [basic?]
  · rw [h]
  all_goals simp_all

theorem basic?_escapeChar {c : Char} (hquote : c ≠ '"') (acc cs : List Char) :
    basic? acc (escapeChar c ++ cs) = basic? (c :: acc) cs := by
  rcases escapeChar_cases c with ⟨hplain, hslash, h⟩ | ⟨e, he, h⟩ | ⟨x, y, hcode, h⟩
  · rw [h]
    exact basic?_plain hplain hquote hslash acc cs
  · rw [h]
    exact basic?_letter he acc cs
  · rw [h]
    simp only [List.cons_append, List.nil_append]
    rw [basic?, hcode]

theorem basic?_basicChar (c : Char) (acc cs : List Char) :
    basic? acc (basicChar c ++ cs) = basic? (c :: acc) cs := by
  unfold basicChar
  split
  · next h =>
    subst h
    exact basic?_letter rfl acc cs
  · next hquote =>
    split
    · next h =>
      subst h
      exact basic?_letter rfl acc cs
    · exact basic?_escapeChar hquote acc cs

theorem basic?_flatMap (acc cs rest : List Char) :
    basic? acc (cs.flatMap basicChar ++ '"' :: rest) = some (acc.reverse ++ cs, rest) := by
  induction cs generalizing acc with
  | nil => simp [basic?]
  | cons c cs ih =>
    rw [List.flatMap_cons, List.append_assoc, basic?_basicChar, ih]
    simp

/-! ## Single quotes on one line -/

theorem literal?_append {cs : List Char} (hplain : ∀ c ∈ cs, isPlain c = true)
    (hquote : '\'' ∉ cs) (acc rest : List Char) :
    literal? acc (cs ++ '\'' :: rest) = some (acc.reverse ++ cs, rest) := by
  induction cs generalizing acc with
  | nil => simp [literal?]
  | cons c cs ih =>
    rw [List.forall_mem_cons] at hplain
    rw [List.mem_cons, not_or] at hquote
    have hc : c ≠ '\'' := Ne.symm hquote.1
    rw [List.cons_append, literal?_plain hplain.1 hc, ih hplain.2 hquote.2]
    simp

/-! ## Triple double quotes -/

theorem multiBasic?_letter {e x : Char} (h : escaped? e = some x) (acc cs : List Char) :
    multiBasic? .text acc ('\\' :: e :: cs) = multiBasic? .text (x :: acc) cs := by
  have hu : e ≠ 'u' := ne_of_escaped? h rfl
  have hU : e ≠ 'U' := ne_of_escaped? h rfl
  have hreturn : e ≠ '\r' := ne_of_escaped? h rfl
  have hnewline : e ≠ '\n' := ne_of_escaped? h rfl
  have hblank : ¬ (e = ' ' ∨ e = '\t') :=
    not_or.2 ⟨ne_of_escaped? h rfl, ne_of_escaped? h rfl⟩
  rw [multiBasic?]
  · simp [hnewline, hblank, h]
  all_goals simp_all

theorem multiBasic?_escapeChar {c : Char} (hquote : c ≠ '"') (acc cs : List Char) :
    multiBasic? .text acc (escapeChar c ++ cs) = multiBasic? .text (c :: acc) cs := by
  rcases escapeChar_cases c with ⟨hplain, hslash, h⟩ | ⟨e, he, h⟩ | ⟨x, y, hcode, h⟩
  · rw [h]
    exact multiBasic?_plain hplain hquote hslash acc cs
  · rw [h]
    exact multiBasic?_letter he acc cs
  · rw [h]
    simp only [List.cons_append, List.nil_append]
    rw [multiBasic?, hcode]
    simp

/-- Up to two quotes are text if no third one follows. -/
theorem multiBasic?_quotes {run : Nat} (hrun : run ≤ 2) {d : Char} (hd : d ≠ '"')
    (acc cs : List Char) :
    multiBasic? .text acc (List.replicate run '"' ++ d :: cs) =
      multiBasic? .text (List.replicate run '"' ++ acc) (d :: cs) := by
  have hone (acc : List Char) : multiBasic? .text acc ('"' :: d :: cs) =
      multiBasic? .text ('"' :: acc) (d :: cs) := by
    rw [multiBasic?]
    · simp [isPlain]
    all_goals simp_all
  obtain rfl | rfl | rfl : run = 0 ∨ run = 1 ∨ run = 2 := by omega
  · rfl
  · exact hone acc
  · have htwo : multiBasic? .text acc ('"' :: '"' :: d :: cs) =
        multiBasic? .text ('"' :: acc) ('"' :: d :: cs) := by
      rw [multiBasic?]
      · simp [isPlain]
      all_goals simp_all
    exact htwo.trans (hone ('"' :: acc))

/-- Up to two quotes may stand before the closing ones. -/
theorem multiBasic?_close {run : Nat} (hrun : run ≤ 2) {d : Char} (hd : d ≠ '"')
    (acc rest : List Char) :
    multiBasic? .text acc (List.replicate run '"' ++ '"' :: '"' :: '"' :: d :: rest) =
      some (acc.reverse ++ List.replicate run '"', d :: rest) := by
  obtain rfl | rfl | rfl : run = 0 ∨ run = 1 ∨ run = 2 := by omega
  · simp [multiBasic?, hd]
  · simp [multiBasic?, List.replicate, hd]
  · simp [multiBasic?, List.replicate]

theorem exists_escapeChar_eq_cons {c : Char} (hquote : c ≠ '"') :
    ∃ e es, escapeChar c = e :: es ∧ e ≠ '"' ∧ e ≠ '\n' ∧ e ≠ '\r' := by
  rcases escapeChar_cases c with ⟨hplain, -, h⟩ | ⟨e, -, h⟩ | ⟨x, y, -, h⟩
  · exact ⟨c, [], h, hquote, ne_newline_of_isPlain hplain, ne_return_of_isPlain hplain⟩
  · exact ⟨'\\', [e], h, by decide⟩
  · exact ⟨'\\', ['u', '0', '0', x, y], h, by decide⟩

/-- Text between triple double quotes, where `run` quotes of it stand in front. -/
theorem multiBasic?_text {d : Char} (hd : d ≠ '"') (rest cs : List Char) {run : Nat}
    (hrun : run ≤ 2) (acc : List Char) :
    multiBasic? .text acc (List.replicate run '"' ++
        (multiBasicText run cs ++ '"' :: '"' :: '"' :: d :: rest)) =
      some (acc.reverse ++ List.replicate run '"' ++ cs, d :: rest) := by
  induction cs generalizing run acc with
  | nil =>
    rw [multiBasicText, List.nil_append, multiBasic?_close hrun hd, List.append_nil]
  | cons c cs ih =>
    rw [multiBasicText]
    split
    · next hquote =>
      subst hquote
      split
      · next htwo =>
        -- the third quote of a row is escaped, and the row starts anew behind it
        subst htwo
        rw [List.cons_append, multiBasic?_quotes (Nat.le_refl 2) (by decide), List.cons_append,
          multiBasic?_letter rfl]
        have hread := ih (Nat.zero_le 2) ('"' :: '"' :: '"' :: acc)
        simpa using hread
      · next hne =>
        have hread := ih (by omega : run + 1 ≤ 2) acc
        rw [List.replicate_succ', List.append_assoc] at hread
        simpa using hread
    · next hquote =>
      split
      · next hnewline =>
        subst hnewline
        rw [List.cons_append, multiBasic?_quotes hrun (by decide), multiBasic?]
        have hread := ih (Nat.zero_le 2) ('\n' :: (List.replicate run '"' ++ acc))
        simpa using hread
      · obtain ⟨e, es, hescape, he, -⟩ := exists_escapeChar_eq_cons hquote
        have hread := ih (Nat.zero_le 2) (c :: (List.replicate run '"' ++ acc))
        rw [List.append_assoc, hescape, List.cons_append, multiBasic?_quotes hrun he,
          ← List.cons_append, ← hescape, multiBasic?_escapeChar hquote]
        simpa using hread

/-! ## Triple single quotes -/

theorem hasLongRun_tail {q c : Char} {cs : List Char} (h : hasLongRun q (c :: cs) = false) :
    hasLongRun q cs = false := by
  match cs with
  | [] => rfl
  | [_] => rfl
  | a :: b :: cs =>
    rw [hasLongRun, Bool.or_eq_false_iff] at h
    exact h.2

theorem hasLongRun_of_append {q : Char} {xs ys : List Char} (h : hasLongRun q (xs ++ ys) = false) :
    hasLongRun q ys = false := by
  induction xs with
  | nil => exact h
  | cons x xs ih => exact ih (hasLongRun_tail h)

theorem multiLiteral?_quotes {run : Nat} (hrun : run ≤ 2) {d : Char} (hd : d ≠ '\'')
    (acc cs : List Char) :
    multiLiteral? acc (List.replicate run '\'' ++ d :: cs) =
      multiLiteral? (List.replicate run '\'' ++ acc) (d :: cs) := by
  have hone (acc : List Char) : multiLiteral? acc ('\'' :: d :: cs) =
      multiLiteral? ('\'' :: acc) (d :: cs) := by
    rw [multiLiteral?]
    · simp [isPlain]
    all_goals simp_all
  obtain rfl | rfl | rfl : run = 0 ∨ run = 1 ∨ run = 2 := by omega
  · rfl
  · exact hone acc
  · have htwo : multiLiteral? acc ('\'' :: '\'' :: d :: cs) =
        multiLiteral? ('\'' :: acc) ('\'' :: d :: cs) := by
      rw [multiLiteral?]
      · simp [isPlain]
      all_goals simp_all
    exact htwo.trans (hone ('\'' :: acc))

theorem multiLiteral?_close {run : Nat} (hrun : run ≤ 2) {d : Char} (hd : d ≠ '\'')
    (acc rest : List Char) :
    multiLiteral? acc (List.replicate run '\'' ++ '\'' :: '\'' :: '\'' :: d :: rest) =
      some (acc.reverse ++ List.replicate run '\'', d :: rest) := by
  obtain rfl | rfl | rfl : run = 0 ∨ run = 1 ∨ run = 2 := by omega
  · simp [multiLiteral?, hd]
  · simp [multiLiteral?, List.replicate, hd]
  · simp [multiLiteral?, List.replicate]

/-- Text between triple single quotes, where `run` quotes of it stand in front. -/
theorem multiLiteral?_text {d : Char} (hd : d ≠ '\'') (rest : List Char) {cs : List Char}
    (hclean : isClean cs = true) {run : Nat} (hrun : run ≤ 2)
    (hshort : hasLongRun '\'' (List.replicate run '\'' ++ cs) = false) (acc : List Char) :
    multiLiteral? acc (List.replicate run '\'' ++ (cs ++ '\'' :: '\'' :: '\'' :: d :: rest)) =
      some (acc.reverse ++ List.replicate run '\'' ++ cs, d :: rest) := by
  induction cs generalizing run acc with
  | nil => rw [List.nil_append, multiLiteral?_close hrun hd, List.append_nil]
  | cons c cs ih =>
    rw [isClean, List.all_cons, Bool.and_eq_true] at hclean
    by_cases hquote : c = '\''
    · subst hquote
      have hless : run < 2 := by
        refine Nat.lt_of_le_of_ne hrun ?_
        rintro rfl
        simp [hasLongRun, List.replicate] at hshort
      have hjoin : List.replicate run '\'' ++ '\'' :: cs = List.replicate (run + 1) '\'' ++ cs := by
        rw [List.replicate_succ', List.append_assoc, List.singleton_append]
      rw [hjoin] at hshort
      have hread := ih hclean.2 hless hshort acc
      rw [List.replicate_succ'] at hread
      simpa using hread
    · have hshort' : hasLongRun '\'' cs = false := hasLongRun_tail (hasLongRun_of_append hshort)
      have hread := ih hclean.2 (Nat.zero_le 2) hshort' (c :: (List.replicate run '\'' ++ acc))
      rw [List.cons_append, multiLiteral?_quotes hrun hquote, multiLiteral?_char hclean.1 hquote]
      simpa using hread

/-! ## The form of a string -/

theorem isPlain_of_isClean {cs : List Char} (hclean : isClean cs = true) (hline : '\n' ∉ cs) :
    ∀ c ∈ cs, isPlain c = true := by
  intro c hc
  have hchar : isPlain c = true ∨ c = '\n' := by
    simpa using List.all_eq_true.1 hclean c hc
  exact hchar.resolve_right fun hnewline => hline (hnewline ▸ hc)

theorem formOf_literal {cs : List Char} (h : formOf cs = .literal) :
    isClean cs = true ∧ '\n' ∉ cs ∧ '\'' ∉ cs ∧ cs ≠ [] := by
  unfold formOf at h
  simp only [Bool.and_eq_true, decide_eq_true_eq] at h
  split at h
  · cases h
  · next hbasic =>
    split at h
    · next hliteral =>
      refine ⟨hliteral.1.1, hliteral.1.2, hliteral.2, ?_⟩
      rintro rfl
      exact hbasic ⟨⟨hliteral.1, by simp⟩, by simp⟩
    · repeat' split at h
      all_goals cases h

theorem formOf_multiLiteral {cs : List Char} (h : formOf cs = .multiLiteral) :
    isClean cs = true ∧ hasLongRun '\'' cs = false := by
  unfold formOf at h
  simp only [Bool.and_eq_true, decide_eq_true_eq, Bool.not_eq_true'] at h
  split at h
  · cases h
  split at h
  · cases h
  split at h
  · cases h
  split at h
  · next hclean => exact hclean
  · split at h <;> cases h

/-! ## Strings of any form -/

/-- Of the text behind opening triple quotes only the newline is dropped that was put there. -/
theorem dropNewline_lineBreak {cs text : List Char}
    (htext : '\n' ∉ cs → ∃ c rest, text = c :: rest ∧ c ≠ '\n' ∧ c ≠ '\r') :
    dropNewline (lineBreak cs ++ text) = text := by
  unfold lineBreak
  split
  · rfl
  · next hline =>
    obtain ⟨c, rest, rfl, hnewline, hreturn⟩ := htext hline
    rw [List.nil_append, dropNewline]
    all_goals simp_all

theorem exists_basicChar_eq_cons (c : Char) : ∃ e es, basicChar c = e :: es ∧ e ≠ '"' := by
  unfold basicChar
  split
  · exact ⟨'\\', ['"'], rfl, by decide⟩
  · next hquote =>
    split
    · exact ⟨'\\', ['n'], rfl, by decide⟩
    · obtain ⟨e, es, hescape, he, -⟩ := exists_escapeChar_eq_cons hquote
      exact ⟨e, es, hescape, he⟩

theorem string?_basic (cs : List Char) {d : Char} (hd : d ≠ '"') (rest : List Char) :
    string? ('"' :: (cs.flatMap basicChar ++ '"' :: d :: rest)) =
      some (String.ofList cs, d :: rest) := by
  -- no second and third quote follow the first, so this is not the triple form
  have hshort (ds : List Char) : cs.flatMap basicChar ++ '"' :: d :: rest ≠ '"' :: '"' :: ds := by
    cases cs with
    | nil => simp [hd]
    | cons c cs =>
      obtain ⟨e, es, hchar, he⟩ := exists_basicChar_eq_cons c
      simp [hchar, he]
  rw [string?]
  · rw [basic?_flatMap]
    rfl
  · exact hshort

theorem string?_literal {cs : List Char} (hplain : ∀ c ∈ cs, isPlain c = true)
    (hquote : '\'' ∉ cs) (hne : cs ≠ []) (rest : List Char) :
    string? ('\'' :: (cs ++ '\'' :: rest)) = some (String.ofList cs, rest) := by
  have hshort (ds : List Char) : cs ++ '\'' :: rest ≠ '\'' :: '\'' :: ds := by
    cases cs with
    | nil => exact absurd rfl hne
    | cons c cs =>
      have hc : c ≠ '\'' := fun h => hquote (h ▸ List.mem_cons_self)
      simp [hc]
  rw [string?]
  · rw [literal?_append hplain hquote]
    rfl
  · exact hshort

theorem exists_multiBasicText_eq_cons {cs : List Char} (hline : '\n' ∉ cs) (more : List Char) :
    ∃ c rest, multiBasicText 0 cs ++ '"' :: more = c :: rest ∧ c ≠ '\n' ∧ c ≠ '\r' := by
  cases cs with
  | nil => exact ⟨'"', more, rfl, by decide⟩
  | cons c cs =>
    have hnewline : c ≠ '\n' := fun h => hline (h ▸ List.mem_cons_self)
    by_cases hquote : c = '"'
    · subst hquote
      exact ⟨'"', _, rfl, by decide⟩
    · obtain ⟨e, es, hescape, -, he⟩ := exists_escapeChar_eq_cons hquote
      refine ⟨e, es ++ (multiBasicText 0 cs ++ '"' :: more), ?_, he⟩
      rw [multiBasicText, if_neg hquote, if_neg hnewline, hescape]
      simp

theorem string?_multiBasic (cs : List Char) {d : Char} (hd : d ≠ '"') (rest : List Char) :
    string? ('"' :: '"' :: '"' ::
        (lineBreak cs ++ (multiBasicText 0 cs ++ '"' :: '"' :: '"' :: d :: rest))) =
      some (String.ofList cs, d :: rest) := by
  have hread := multiBasic?_text hd rest cs (Nat.zero_le 2) []
  simp only [List.replicate_zero, List.nil_append, List.reverse_nil] at hread
  rw [string?, dropNewline_lineBreak fun hline => exists_multiBasicText_eq_cons hline _, hread]
  rfl

theorem string?_multiLiteral {cs : List Char} (hclean : isClean cs = true)
    (hshort : hasLongRun '\'' cs = false) {d : Char} (hd : d ≠ '\'') (rest : List Char) :
    string? ('\'' :: '\'' :: '\'' ::
        (lineBreak cs ++ (cs ++ '\'' :: '\'' :: '\'' :: d :: rest))) =
      some (String.ofList cs, d :: rest) := by
  have hstart (hline : '\n' ∉ cs) (more : List Char) :
      ∃ c rest, cs ++ '\'' :: more = c :: rest ∧ c ≠ '\n' ∧ c ≠ '\r' := by
    have hplain := isPlain_of_isClean hclean hline
    cases cs with
    | nil => exact ⟨'\'', more, rfl, by decide⟩
    | cons c cs =>
      rw [List.forall_mem_cons] at hplain
      exact ⟨c, _, rfl, ne_newline_of_isPlain hplain.1, ne_return_of_isPlain hplain.1⟩
  have hread := multiLiteral?_text hd rest hclean (Nat.zero_le 2) hshort []
  simp only [List.replicate_zero, List.nil_append, List.reverse_nil] at hread
  rw [string?, dropNewline_lineBreak fun hline => hstart hline _, hread]
  rfl

/-- What is written for a string is read back as that string, in front of anything but a quote. -/
theorem string?_writeChars (cs : List Char) {d : Char} (hd : d ≠ '"') (hd' : d ≠ '\'')
    (rest : List Char) :
    string? (writeChars cs ++ d :: rest) = some (String.ofList cs, d :: rest) := by
  unfold writeChars
  cases hform : formOf cs with
  | basic => simpa using string?_basic cs hd rest
  | literal =>
    obtain ⟨hclean, hline, hquote, hne⟩ := formOf_literal hform
    simpa using string?_literal (isPlain_of_isClean hclean hline) hquote hne (d :: rest)
  | multiBasic => simpa using string?_multiBasic cs hd rest
  | multiLiteral =>
    obtain ⟨hclean, hshort⟩ := formOf_multiLiteral hform
    simpa using string?_multiLiteral hclean hshort hd' rest

end SourceOutline.Toml.Quoted
