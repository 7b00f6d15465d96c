import SourceOutline.Outline.Codec

/-
  The JSON of an outline tells everything about it: outlines whose JSON is the same are equal
  (`Outline.same_toJson_iff`).

  Two JSON values count as the same if they differ at most in the order in which their objects list
  the members (`Json.Same`), so a reader that keeps objects as maps loses nothing either. Values are
  written without a tag and are told apart by their sort of JSON alone (`Value.eq_of_same`). What a
  value of an outline holds is told by its only key, and a missing span by the key that is missing.
-/

namespace SourceOutline

namespace Json

mutual

/-- The same JSON: lists agree item by item, and objects under every key. -/
inductive Same : Json → Json → Prop where
  | null : Same .null .null
  | bool (b : Bool) : Same (.bool b) (.bool b)
  | int (n : Int) : Same (.int n) (.int n)
  | real (text : String) : Same (.real text) (.real text)
  | string (s : String) : Same (.string s) (.string s)
  | garbled : Same .garbled .garbled
  | array {as bs : List Json} : SameItems as bs → Same (.array as) (.array bs)
  | object {as bs : List (String × Json)} :
      (∀ key, SameAt (as.lookup key) (bs.lookup key)) → Same (.object as) (.object bs)

inductive SameItems : List Json → List Json → Prop where
  | nil : SameItems [] []
  | cons {a b : Json} {as bs : List Json} :
      Same a b → SameItems as bs → SameItems (a :: as) (b :: bs)

/-- The same under a key: nothing on both sides, or values that are the same. -/
inductive SameAt : Option Json → Option Json → Prop where
  | missing : SameAt none none
  | given {a b : Json} : Same a b → SameAt (some a) (some b)

end

mutual

theorem Same.refl : (j : Json) → Same j j
  | .null => .null
  | .bool b => .bool b
  | .int n => .int n
  | .real text => .real text
  | .string s => .string s
  | .garbled => .garbled
  | .array items => .array (SameItems.refl items)
  | .object members => .object (SameAt.refl members)

theorem SameItems.refl : (items : List Json) → SameItems items items
  | [] => .nil
  | item :: items => .cons (Same.refl item) (SameItems.refl items)

theorem SameAt.refl : (members : List (String × Json)) → (key : String) →
    SameAt (members.lookup key) (members.lookup key)
  | [], _ => .missing
  | (k, v) :: members, key => by
    rw [List.lookup_cons]
    split
    · exact .given (Same.refl v)
    · exact SameAt.refl members key

end

/-! ## What values that are the same have in common -/

theorem Same.at {as bs : List (String × Json)} (h : Same (.object as) (.object bs))
    (key : String) : SameAt (as.lookup key) (bs.lookup key) := by
  cases h with
  | object hat => exact hat key

theorem Same.items {as bs : List Json} (h : Same (.array as) (.array bs)) : SameItems as bs := by
  cases h with
  | array hitems => exact hitems

@[simp] theorem same_string_iff {s t : String} : Same (.string s) (.string t) ↔ s = t :=
  ⟨fun h => by cases h; rfl, fun h => h ▸ .string s⟩

@[simp] theorem same_int_iff {n m : Int} : Same (.int n) (.int m) ↔ n = m :=
  ⟨fun h => by cases h; rfl, fun h => h ▸ .int n⟩

@[simp] theorem same_nat_iff {n m : Nat} : Same (.nat n) (.nat m) ↔ n = m :=
  same_int_iff.trans Int.ofNat_inj

@[simp] theorem same_word_iff {a b : UInt64} : Same (.word a) (.word b) ↔ a = b :=
  same_nat_iff.trans UInt64.toNat_inj

@[simp] theorem same_bool_iff {a b : Bool} : Same (.bool a) (.bool b) ↔ a = b :=
  ⟨fun h => by cases h; rfl, fun h => h ▸ .bool a⟩

@[simp] theorem sameAt_given_iff {a b : Json} : SameAt (some a) (some b) ↔ Same a b :=
  ⟨fun h => by cases h with | given hsame => exact hsame, .given⟩

@[simp] theorem not_sameAt_missing_given (b : Json) : ¬ SameAt none (some b) := nofun

@[simp] theorem not_sameAt_given_missing (a : Json) : ¬ SameAt (some a) none := nofun

end Json

open Json

/-! ## Spans and values -/

theorem Interval.eq_of_same {i j : Interval} (h : Same i.toJson j.toJson) : i = j := by
  have hstart : i.start = j.start := by simpa [List.lookup_cons] using h.at "start"
  have hstop : i.stop = j.stop := by simpa [List.lookup_cons] using h.at "end"
  obtain ⟨start, stop⟩ := i
  subst hstart hstop
  rfl

theorem Span.eq_of_same {s t : Span} (h : Same s.toJson t.toJson) : s = t := by
  have hsl : s.startLine = t.startLine := by simpa [List.lookup_cons] using h.at "start_line"
  have hsc : s.startColumn = t.startColumn := by simpa [List.lookup_cons] using h.at "start_column"
  have hel : s.endLine = t.endLine := by simpa [List.lookup_cons] using h.at "end_line"
  have hec : s.endColumn = t.endColumn := by simpa [List.lookup_cons] using h.at "end_column"
  obtain ⟨sl, sc, el, ec⟩ := s
  subst hsl hsc hel hec
  rfl

/-- Truth values, numbers and texts are three sorts of JSON, and only a piece of the source is an
    object. -/
theorem Value.eq_of_same {v w : Value} (h : Same v.toJson w.toJson) : v = w := by
  cases v with
  | bool a =>
    cases w with
    | bool b => exact congrArg _ (same_bool_iff.1 h)
    | int | text | token => cases h
  | int n =>
    cases w with
    | int m => exact congrArg _ (same_int_iff.1 h)
    | bool | text | token => cases h
  | text s =>
    cases w with
    | text t => exact congrArg _ (same_string_iff.1 h)
    | bool | int | token => cases h
  | token kind s i =>
    cases w with
    | token kind' s' i' =>
      have hkind : kind = kind' := by simpa [List.lookup_cons] using h.at "kind"
      have htext : s = s' := by simpa [List.lookup_cons] using h.at "text"
      have hplace : Same i.toJson i'.toJson := by simpa [List.lookup_cons] using h.at "interval"
      rw [hkind, htext, Interval.eq_of_same hplace]
    | bool | int | text => cases h

/-! ## Outlines -/

mutual

theorem Outline.eq_of_same : (o p : Outline) → Same o.toJson p.toJson → o = p
  | .mk entity span values, .mk entity' span' values', h => by
    have hentity : entity = entity' := by
      cases span <;> cases span' <;> simpa [List.lookup_cons] using h.at "entity"
    have hspan : span = span' := by
      cases span with
      | none =>
        cases span' with
        | none => rfl
        | some t => exact absurd (h.at "span") (by simp [List.lookup_cons])
      | some s =>
        cases span' with
        | none => exact absurd (h.at "span") (by simp [List.lookup_cons])
        | some t =>
          have hsame : Same s.toJson t.toJson := by simpa [List.lookup_cons] using h.at "span"
          rw [Span.eq_of_same hsame]
    have hvalues : Same (.array (OutlineValue.listToJson values))
        (.array (OutlineValue.listToJson values')) := by
      cases span <;> cases span' <;> simpa [List.lookup_cons] using h.at "values"
    rw [hentity, hspan, OutlineValue.eq_of_sameItems values values' hvalues.items]

theorem OutlineValue.eq_of_sameItems : (vs ws : List OutlineValue) →
    SameItems (OutlineValue.listToJson vs) (OutlineValue.listToJson ws) → vs = ws
  | [], [], _ => rfl
  | [], .mk _ _ _ :: _, h => nomatch h
  | .mk _ _ _ :: _, [], h => nomatch h
  | .mk name index content :: vs, .mk name' index' content' :: ws, .cons hfirst hrest => by
    have hname : name = name' := by simpa [List.lookup_cons] using hfirst.at "name"
    have hindex : index = index' := by simpa [List.lookup_cons] using hfirst.at "index"
    have hcontent : Same content.toJson content'.toJson := by
      simpa [List.lookup_cons] using hfirst.at "content"
    rw [hname, hindex, OutlineContent.eq_of_same content content' hcontent,
      OutlineValue.eq_of_sameItems vs ws hrest]

theorem OutlineContent.eq_of_same : (c d : OutlineContent) → Same c.toJson d.toJson → c = d
  | .value v, .value w, h => by
    have hvalue : Same v.toJson w.toJson := by simpa [List.lookup_cons] using h.at "value"
    rw [Value.eq_of_same hvalue]
  | .element o, .element p, h => by
    have helement : Same o.toJson p.toJson := by simpa [List.lookup_cons] using h.at "element"
    rw [Outline.eq_of_same o p helement]
  | .elided e, .elided f, h => by
    have helided : e = f := by simpa [List.lookup_cons] using h.at "elided"
    rw [helided]
  | .value _, .element _, h => absurd (h.at "value") (by simp [List.lookup_cons])
  | .value _, .elided _, h => absurd (h.at "value") (by simp [List.lookup_cons])
  | .element _, .value _, h => absurd (h.at "element") (by simp [List.lookup_cons])
  | .element _, .elided _, h => absurd (h.at "element") (by simp [List.lookup_cons])
  | .elided _, .value _, h => absurd (h.at "elided") (by simp [List.lookup_cons])
  | .elided _, .element _, h => absurd (h.at "elided") (by simp [List.lookup_cons])

end

/-- The JSON of an outline loses nothing: two outlines have the same JSON only if they are equal. -/
theorem Outline.same_toJson_iff (o p : Outline) : o.toJson.Same p.toJson ↔ o = p := by
  constructor
  · intro h
    exact Outline.eq_of_same o p h
  · rintro rfl
    exact Json.Same.refl o.toJson

end SourceOutline
