import Mathlib
import FormulaSheet.Formula.Scan

namespace FormulaSheet

section Characters

variable {c : Char}

theorem isBlank_eq_false (h : 0x21 ≤ c.toNat) (h' : c.toNat ≤ 0x7E) : isBlank c = false := by
  simp only [isBlank]
  simp
  omega

theorem toNat_of_isDigit (h : c.isDigit) : 0x30 ≤ c.toNat ∧ c.toNat ≤ 0x39 := by
  simp [Char.isDigit, UInt32.le_iff_toNat_le] at h
  exact h

theorem toNat_of_isNameStart (h : isNameStart c) : 0x41 ≤ c.toNat ∧ c.toNat ≤ 0x7A := by
  simp [isNameStart, Char.isAlpha, Char.isUpper, Char.isLower, UInt32.le_iff_toNat_le] at h
  rcases h with (h | h) | rfl
  · omega
  · omega
  · decide

theorem isSymbol_iff :
    isSymbol c ↔ c = '(' ∨ c = ')' ∨ c = '+' ∨ c = '-' ∨ c = '*' ∨ c = '/' := by
  simp [isSymbol, or_assoc]

theorem eq_false_of_isSymbol {q : Char → Bool}
    (hq : ['(', ')', '+', '-', '*', '/'].any q = false) (h : isSymbol c) : q c = false :=
  Bool.eq_false_iff.2 (List.any_eq_false.1 hq c (by simpa using isSymbol_iff.1 h))

theorem isSymbol_eq_false_of_isNameStart (h : isNameStart c) : isSymbol c = false := by
  by_contra hs
  simp [eq_false_of_isSymbol (q := isNameStart) (by decide) (by simpa using hs)] at h

theorem isSymbol_eq_false_of_isDigit (h : c.isDigit) : isSymbol c = false := by
  by_contra hs
  simp [eq_false_of_isSymbol (q := Char.isDigit) (by decide) (by simpa using hs)] at h

theorem isNameStart_eq_false_of_isDigit (h : c.isDigit) : isNameStart c = false := by
  by_contra hs
  have := toNat_of_isDigit h
  have := toNat_of_isNameStart (by simpa using hs)
  omega

theorem isBlank_eq_false_of_isNamePart (h : isNamePart c) : isBlank c = false := by
  have hc : 0x21 ≤ c.toNat ∧ c.toNat ≤ 0x7E := by
    simp [isNamePart, Char.isAlphanum, Char.isAlpha, Char.isUpper, Char.isLower, Char.isDigit,
      UInt32.le_iff_toNat_le] at h
    rcases h with ((h | h) | h) | rfl
    · omega
    · omega
    · omega
    · decide
  exact isBlank_eq_false hc.1 hc.2

theorem isBlank_eq_false_of_isSymbol (h : isSymbol c) : isBlank c = false :=
  eq_false_of_isSymbol (by decide) h

theorem isNamePart_of_isNameStart (h : isNameStart c) : isNamePart c := by
  simp only [isNameStart, isNamePart, Char.isAlphanum, Bool.or_eq_true] at h ⊢
  tauto

theorem isNamePart_of_isDigit (h : c.isDigit) : isNamePart c := by
  simp [isNamePart, Char.isAlphanum, h]

theorem eq_false_of_isBlank {q : Char → Bool} (hq : ∀ d, q d → isBlank d = false)
    (h : isBlank c) : q c = false := by
  by_contra hc
  simp [hq c (by simpa using hc)] at h

theorem isDigit_eq_false_of_isBlank (h : isBlank c) : c.isDigit = false :=
  eq_false_of_isBlank (fun _ hd => isBlank_eq_false_of_isNamePart (isNamePart_of_isDigit hd)) h

theorem isNameStart_eq_false_of_isBlank (h : isBlank c) : isNameStart c = false :=
  eq_false_of_isBlank
    (fun _ hd => isBlank_eq_false_of_isNamePart (isNamePart_of_isNameStart hd)) h

theorem ne_of_isBlank {d : Char} (hd : isBlank d = false) (h : isBlank c) : c ≠ d := by
  rintro rfl
  simp [h] at hd

end Characters

section Scanning

variable {c : Char} {cs rest token : List Char} {v : String}

theorem exists_of_isVariable (h : isVariable v) :
    ∃ c cs, v.toList = c :: cs ∧ isNameStart c ∧ ∀ d ∈ cs, isNamePart d := by
  unfold isVariable at h
  split at h
  · simp at h
  · next c cs hv =>
    rw [Bool.and_eq_true, List.all_eq_true] at h
    exact ⟨c, cs, hv, h⟩

/-- A numeral starts with a digit or a point. -/
theorem scanNumeral?_eq_none (hd : c.isDigit = false) (hp : c ≠ '.') :
    scanNumeral? (c :: cs) = none := by
  simp [scanNumeral?, scanMantissa?, hd, hp]

/-- A numeral has no sign. -/
theorem exists_of_isNumeral (h : isNumeral v) :
    ∃ c cs, v.toList = c :: cs ∧ (c.isDigit ∨ c = '.') := by
  unfold isNumeral at h
  cases hr : v.toList with
  | nil =>
    rw [hr] at h
    exact absurd h (by decide)
  | cons c cs =>
    refine ⟨c, cs, rfl, ?_⟩
    by_contra hc
    obtain ⟨hd, hp⟩ := not_or.1 hc
    rw [hr, scanNumeral?_eq_none (by simpa using hd) hp] at h
    cases h

theorem scanToken?_symbol (h : isSymbol c) : scanToken? (c :: rest) = some ([c], rest) := by
  rw [scanToken?, if_pos h]

theorem scanToken?_of_isBlank (h : isBlank c) : scanToken? (c :: cs) = none := by
  rw [scanToken?, eq_false_of_isBlank (fun _ => isBlank_eq_false_of_isSymbol) h,
    isNameStart_eq_false_of_isBlank h]
  exact scanNumeral?_eq_none (isDigit_eq_false_of_isBlank h) (ne_of_isBlank (by decide) h)

theorem scanFrom_blank (cs : List Char) (h : isBlank c) (acc : List (List Char)) :
    scanFrom acc (c :: cs) = scanFrom acc cs := by
  rw [scanFrom, if_pos h]

theorem scanFrom_blanks {blanks : List Char} (h : ∀ c ∈ blanks, isBlank c) (cs : List Char)
    (acc : List (List Char)) : scanFrom acc (blanks ++ cs) = scanFrom acc cs := by
  induction blanks with
  | nil => rfl
  | cons c blanks ih =>
    obtain ⟨hc, hblanks⟩ := List.forall_mem_cons.1 h
    rw [List.cons_append, scanFrom_blank _ hc, ih hblanks]

theorem scanFrom_token {acc : List (List Char)} (hb : isBlank c = false)
    (h : scanToken? (c :: cs) = some (token, rest)) :
    scanFrom acc (c :: cs) = scanFrom (token :: acc) rest := by
  rw [scanFrom, hb, if_neg Bool.false_ne_true]
  split
  · next h' =>
    rw [h, Option.some.injEq, Prod.mk.injEq] at h'
    rw [h'.1, h'.2]
  · next h' => simp [h] at h'

theorem scanFrom_stray (cs : List Char) (hb : isBlank c = false) (h : scanToken? (c :: cs) = none)
    (acc : List (List Char)) :
    scanFrom acc (c :: cs) = scanFrom ((scanStray [c] cs).1 :: acc) (scanStray [c] cs).2 := by
  rw [scanFrom, hb, if_neg Bool.false_ne_true]
  split
  · next h' => simp [h] at h'
  · rfl

/-- A token in front of a text is its first one. -/
theorem scanFrom_of_scanToken? {t rest : List Char} (h : scanToken? cs = some (t, rest))
    (acc : List (List Char)) : scanFrom acc cs = scanFrom (t :: acc) rest := by
  cases cs with
  | nil => cases h
  | cons c cs =>
    have hb : isBlank c = false := by
      by_contra hc
      rw [scanToken?_of_isBlank (by simpa using hc)] at h
      cases h
    exact scanFrom_token hb h

/-- Tokens that were found before stay in front. -/
theorem scanFrom_append (acc found : List (List Char)) (cs : List Char) :
    scanFrom (acc ++ found) cs = found.reverse ++ scanFrom acc cs := by
  fun_induction scanFrom acc cs with
  | case1 acc => rw [scanFrom_nil, List.reverse_append]
  | case2 acc c cs hc ih => rw [scanFrom_blank _ hc, ih]
  | case3 acc c cs hc token rest h ih =>
    rw [scanFrom_of_scanToken? h, ← ih]
    rfl
  | case4 acc c cs hc h ih =>
    rw [scanFrom_stray _ (by simpa using hc) h, ← ih]
    rfl

end Scanning

end FormulaSheet
