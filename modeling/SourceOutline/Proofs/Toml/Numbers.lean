import Mathlib.Data.List.Basic
import Mathlib.Data.List.TakeDrop
import Mathlib.Data.List.TakeWhile
import SourceOutline.Toml.Scalar

/-
  A number in decimal digits is read as that number, if it fits in 64 bits with a sign
  (`Scalar.read?_toDigits`). A word of digits alone is no truth value, date, time or fraction, so
  nothing that is tried before whole numbers takes it.
-/

namespace SourceOutline.Toml

/-- Characters of different sorts differ. -/
theorem ne_of_sorts {p : Char → Bool} {c d : Char} (hc : p c = true) (hd : p d = false) :
    c ≠ d := by
  rintro rfl
  rw [hc] at hd
  cases hd

/-- A run of characters of one sort, up to the first of another. -/
theorem span_append_cons {p : Char → Bool} {w : List Char} (hw : ∀ c ∈ w, p c = true) {d : Char}
    (hd : p d = false) (rest : List Char) : (w ++ d :: rest).span p = (w, d :: rest) := by
  rw [List.span_eq_takeWhile_dropWhile, List.takeWhile_append_of_pos hw,
    List.dropWhile_append_of_pos hw, List.takeWhile_cons_of_neg (by simp [hd]),
    List.dropWhile_cons_of_neg (by simp [hd]), List.append_nil]

theorem span_all {p : Char → Bool} {w : List Char} (hw : ∀ c ∈ w, p c = true) :
    w.span p = (w, []) := by
  rw [List.span_eq_takeWhile_dropWhile, List.takeWhile_eq_self_iff.2 hw,
    List.dropWhile_eq_nil_iff.2 hw]

namespace Scalar

/-! ## Digits -/

theorem hexDigit?_of_isDigit {c : Char} (h : c.isDigit = true) :
    Json.Parser.hexDigit? c = some (c.toNat - '0'.toNat) := by
  have hbounds : '0' ≤ c ∧ c ≤ '9' := by simpa [Char.isDigit, Char.le_def] using h
  rw [Json.Parser.hexDigit?, if_pos hbounds]

theorem ungroup?_digits {w : List Char} (hw : ∀ c ∈ w, c.isDigit = true) (hne : w ≠ []) :
    ungroup? Char.isDigit w = some w := by
  induction w with
  | nil => exact absurd rfl hne
  | cons c w ih =>
    rw [List.forall_mem_cons] at hw
    cases w with
    | nil => rw [ungroup?, if_pos hw.1]
    | cons d w =>
      have hd : d ≠ '_' := ne_of_sorts (hw.2 d List.mem_cons_self) (by decide)
      rw [ungroup?]
      · rw [if_pos hw.1, ih hw.2 (List.cons_ne_nil d w)]
        rfl
      all_goals simp_all

theorem valueOf_digits {w : List Char} (hw : ∀ c ∈ w, c.isDigit = true) :
    valueOf 10 w = Nat.ofDigitChars 10 w 0 := by
  unfold valueOf Nat.ofDigitChars
  refine List.foldl_ext _ _ _ fun n c hc => ?_
  rw [hexDigit?_of_isDigit (hw c hc), Option.getD_some, Nat.mul_comm]

theorem head?_toDigits_ne_zero {n : Nat} (h : n ≠ 0) : (Nat.toDigits 10 n).head? ≠ some '0' := by
  induction n using Nat.strongRecOn with
  | ind n ih =>
    rw [Nat.toDigits_eq_if (by decide)]
    split
    · next hsmall =>
      have hall : ∀ n < 10, n ≠ 0 → [n.digitChar].head? ≠ some '0' := by decide
      exact hall n hsmall h
    · next hlarge =>
      have hless : n / 10 < n := Nat.div_lt_self (by omega) (by decide)
      rw [List.head?_append_of_ne_nil _ Nat.toDigits_ne_nil]
      exact ih (n / 10) hless (by omega)

theorem isDigit_of_mem_toDigits {n : Nat} : ∀ c ∈ Nat.toDigits 10 n, c.isDigit = true :=
  fun _ hc => Nat.isDigit_of_mem_toDigits (by decide) (by decide) hc

theorem exists_toDigits_eq_cons (n : Nat) :
    ∃ c w, Nat.toDigits 10 n = c :: w ∧ c.isDigit = true := by
  obtain ⟨c, w, hdigits⟩ := List.exists_cons_of_ne_nil (Nat.toDigits_ne_nil (n := n) (b := 10))
  exact ⟨c, w, hdigits, isDigit_of_mem_toDigits c (by rw [hdigits]; exact List.mem_cons_self)⟩

theorem whole?_toDigits (n : Nat) : whole? (Nat.toDigits 10 n) = some (Nat.toDigits 10 n) := by
  rw [whole?, ungroup?_digits isDigit_of_mem_toDigits Nat.toDigits_ne_nil]
  split
  · next c w hdigits =>
    -- the only number that starts with a zero has no second digit
    have hzero : n = 0 := by
      by_contra hn
      exact head?_toDigits_ne_zero hn (by rw [Option.some.inj hdigits, List.head?_cons])
    rw [hzero] at hdigits
    simp at hdigits
  · rfl

theorem valueOf_toDigits (n : Nat) : valueOf 10 (Nat.toDigits 10 n) = n := by
  rw [valueOf_digits isDigit_of_mem_toDigits, Nat.ofDigitChars_ten_toDigits]

/-! ## Words of digits -/

theorem not_mem_of_digits {w : List Char} (hw : ∀ c ∈ w, c.isDigit = true) {c : Char}
    (hc : c.isDigit = false) : c ∉ w := by
  intro hmem
  exact ne_of_sorts (hw c hmem) hc rfl

theorem date?_digits {w : List Char} (hw : ∀ c ∈ w, c.isDigit = true) : date? w = none := by
  have hdash : '-' ∉ w := not_mem_of_digits hw (by decide)
  unfold date?
  split
  · simp at hdash
  · rfl

theorem time?_digits {w : List Char} (hw : ∀ c ∈ w, c.isDigit = true) : time? w = none := by
  have hcolon : ':' ∉ w := not_mem_of_digits hw (by decide)
  unfold time?
  split
  · simp at hcolon
  · rfl

theorem isMoment_digits {w : List Char} (hw : ∀ c ∈ w, c.isDigit = true) :
    isMoment w = false := by
  rw [isMoment, date?_digits hw, time?_digits hw]
  rfl

theorem unsignedFloat?_digits (negative : Bool) (text : List Char) {w : List Char}
    (hw : ∀ c ∈ w, c.isDigit = true) : unsignedFloat? negative text w = none := by
  have hspan : w.span (fun c => c.isDigit || c = '_') = (w, []) :=
    span_all fun c hc => by simp [hw c hc]
  rw [unsignedFloat?, hspan]
  simp

theorem float?_digits {w : List Char} (hw : ∀ c ∈ w, c.isDigit = true) : float? w = none := by
  have hplus : '+' ∉ w := not_mem_of_digits hw (by decide)
  have hminus : '-' ∉ w := not_mem_of_digits hw (by decide)
  have hletter : 'n' ∉ w := not_mem_of_digits hw (by decide)
  have hspecial : float?.isSpecial w = false := by
    simp only [float?.isSpecial, Bool.or_eq_false_iff, decide_eq_false_iff_not]
    constructor <;> (rintro rfl; simp at hletter)
  unfold float?
  split
  · simp at hplus
  · simp at hminus
  · rw [hspecial, unsignedFloat?_digits false w hw]
    rfl

theorem integer?_toDigits {n : Nat} (h : n < 9223372036854775808) :
    integer? (Nat.toDigits 10 n) = some (.integer n) := by
  have hfits : fits n = true := by
    simp [fits]
    omega
  have hdecimal : (whole? (Nat.toDigits 10 n)).bind (fun ds => signed? false (valueOf 10 ds)) =
      some (.integer n) := by
    rw [whole?_toDigits, Option.bind_some, valueOf_toDigits]
    simp [signed?, hfits]
  have hx : 'x' ∉ Nat.toDigits 10 n := not_mem_of_digits isDigit_of_mem_toDigits (by decide)
  have ho : 'o' ∉ Nat.toDigits 10 n := not_mem_of_digits isDigit_of_mem_toDigits (by decide)
  have hb : 'b' ∉ Nat.toDigits 10 n := not_mem_of_digits isDigit_of_mem_toDigits (by decide)
  have hplus : '+' ∉ Nat.toDigits 10 n := not_mem_of_digits isDigit_of_mem_toDigits (by decide)
  have hminus : '-' ∉ Nat.toDigits 10 n := not_mem_of_digits isDigit_of_mem_toDigits (by decide)
  unfold integer?
  split
  · next hdigits => simp [hdigits] at hx
  · next hdigits => simp [hdigits] at ho
  · next hdigits => simp [hdigits] at hb
  · next hdigits => simp [hdigits] at hplus
  · next hdigits => simp [hdigits] at hminus
  · exact hdecimal

theorem word?_toDigits {n : Nat} (h : n < 9223372036854775808) :
    word? (Nat.toDigits 10 n) = some (.integer n) := by
  have hletter : 'e' ∉ Nat.toDigits 10 n := not_mem_of_digits isDigit_of_mem_toDigits (by decide)
  have htrue : Nat.toDigits 10 n ≠ ['t', 'r', 'u', 'e'] := fun hw => by simp [hw] at hletter
  have hfalse : Nat.toDigits 10 n ≠ ['f', 'a', 'l', 's', 'e'] := fun hw => by simp [hw] at hletter
  rw [word?, if_neg htrue, if_neg hfalse, isMoment_digits isDigit_of_mem_toDigits,
    float?_digits isDigit_of_mem_toDigits, integer?_toDigits h]
  rfl

/-- A number that fits is read as far as its digits go. -/
theorem read?_toDigits {n : Nat} (h : n < 9223372036854775808) {d : Char}
    (hd : isWordChar d = false) (rest : List Char) :
    read? (Nat.toDigits 10 n ++ d :: rest) = some (.integer n, d :: rest) := by
  have hword : ∀ c ∈ Nat.toDigits 10 n, isWordChar c = true := by
    intro c hc
    simp [isWordChar, Char.isAlphanum, isDigit_of_mem_toDigits c hc]
  rw [read?, span_append_cons hword hd]
  simp [date?_digits isDigit_of_mem_toDigits, word?_toDigits h]

end Scalar

end SourceOutline.Toml
