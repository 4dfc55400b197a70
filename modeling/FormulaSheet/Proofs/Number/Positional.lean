import FormulaSheet.Number.Literal
import FormulaSheet.Text.Run
import FormulaSheet.Proofs.Number.Rounding
import Mathlib.Data.List.TakeDrop
import Mathlib.Data.List.TakeWhile

namespace FormulaSheet

namespace Decimal

theorem ofDigits_nil : ofDigits [] = 0 := rfl

theorem ofDigits_append (xs ys : List Char) :
    ofDigits (xs ++ ys) = 10 ^ ys.length * ofDigits xs + ofDigits ys := by
  change Nat.ofDigitChars 10 (xs ++ ys) 0 = _
  rw [Nat.ofDigitChars_append, Nat.ofDigitChars_eq_ofDigitChars_zero]
  rfl

theorem ofDigits_toDigits (n : ℕ) : ofDigits (Nat.toDigits 10 n) = n :=
  Nat.ofDigitChars_ten_toDigits

theorem isDigit_of_mem_fraction {n part : ℕ} (h : part < 10 ^ n) :
    ∀ c ∈ fraction n part, c.isDigit := by
  induction n generalizing part with
  | zero => simp [fraction]
  | succ n ih =>
    have hn : 0 < 10 ^ n := by positivity
    have hd : part / 10 ^ n < 10 := (Nat.div_lt_iff_lt_mul hn).2 (by rwa [← pow_succ'])
    unfold fraction
    split
    · simp
    · simp only [List.forall_mem_cons, Nat.isDigit_digitChar, Nat.pow_eq]
      exact ⟨by simpa using hd, ih (Nat.mod_lt part hn)⟩

/-- The digits after the point spell the fraction. -/
theorem ofDigits_fraction {n part : ℕ} (h : part < 10 ^ n) :
    ofDigits (fraction n part) * 10 ^ n = part * 10 ^ (fraction n part).length := by
  induction n generalizing part with
  | zero =>
    obtain rfl : part = 0 := by omega
    rfl
  | succ n ih =>
    have hn : 0 < 10 ^ n := by positivity
    have hd : part / 10 ^ n < 10 := (Nat.div_lt_iff_lt_mul hn).2 (by rwa [← pow_succ'])
    unfold fraction
    split
    · next h0 => rw [h0, ofDigits_nil, Nat.zero_mul, Nat.zero_mul]
    have hr := ih (Nat.mod_lt part hn)
    have hc : ofDigits [Nat.digitChar (part / 10 ^ n)] = part / 10 ^ n := by
      change Nat.ofDigitChars 10 _ 0 = _
      rw [Nat.ofDigitChars_cons_digitChar_of_lt_ten hd, Nat.ofDigitChars_nil, Nat.mul_zero,
        Nat.zero_add]
    simp only [Nat.pow_eq]
    generalize fraction n (part % 10 ^ n) = ds at *
    rw [List.length_cons, ← List.singleton_append, ofDigits_append, hc]
    calc (10 ^ ds.length * (part / 10 ^ n) + ofDigits ds) * 10 ^ (n + 1)
        = 10 ^ (ds.length + 1) * (10 ^ n * (part / 10 ^ n)) + 10 * (ofDigits ds * 10 ^ n) := by ring
      _ = 10 ^ (ds.length + 1) * (10 ^ n * (part / 10 ^ n) + part % 10 ^ n) := by rw [hr]; ring
      _ = part * 10 ^ (ds.length + 1) := by rw [Nat.div_add_mod, Nat.mul_comm]

end Decimal

structure Positional where
  whole : List Char
  part : List Char
  whole_ne_nil : whole ≠ []
  isDigit_whole : ∀ c ∈ whole, c.isDigit
  isDigit_part : ∀ c ∈ part, c.isDigit

namespace Positional

variable {p : Positional} {c : Char}

/-- The point is left out if there is nothing after it. -/
def text (p : Positional) : List Char :=
  if p.part = [] then p.whole else p.whole ++ '.' :: p.part

def decimal (p : Positional) : Decimal :=
  ⟨Decimal.ofDigits (p.whole ++ p.part), 0 - p.part.length⟩

theorem isDigit_or_of_mem_text (h : c ∈ p.text) : c.isDigit ∨ c = '.' := by
  unfold text at h
  split at h
  · exact .inl (p.isDigit_whole c h)
  · rcases List.mem_append.1 h with h | h
    · exact .inl (p.isDigit_whole c h)
    · rcases List.mem_cons.1 h with h | h
      · exact .inr h
      · exact .inl (p.isDigit_part c h)

theorem ne_of_isDigit {c d : Char} (h : c.isDigit) (hd : d.isDigit = false) : c ≠ d := by
  rintro rfl
  simp [h] at hd

theorem readDecimal_text (p : Positional) : readDecimal p.text = some p.decimal := by
  have hm : ∀ c ∈ p.text, (c != 'e' && c != 'E') = true := by
    intro c hc
    rcases isDigit_or_of_mem_text hc with h | rfl
    · simp [ne_of_isDigit h]
    · rfl
  have hw : ∀ c ∈ p.whole, (c != '.') = true := by
    intro c hc
    simp [ne_of_isDigit (p.isDigit_whole c hc)]
  have hs : p.text.span (· != '.') = (p.whole, p.text.drop p.whole.length) := by
    rw [List.span_eq_takeWhile_dropWhile]
    unfold text
    split
    · rw [List.takeWhile_eq_self_iff.2 hw, List.dropWhile_eq_nil_iff.2 hw, List.drop_length]
    · rw [takeWhile_run hw (by simp), dropWhile_run hw (by simp), List.drop_left]
  have hp : (p.text.drop p.whole.length).drop 1 = p.part := by
    unfold text
    split
    · next h => rw [List.drop_length, h]; rfl
    · rw [List.drop_left]; rfl
  have hd : (p.whole ++ p.part).all Char.isDigit := by
    simp only [List.all_append, List.all_eq_true, Bool.and_eq_true]
    exact ⟨p.isDigit_whole, p.isDigit_part⟩
  unfold readDecimal
  rw [List.span_eq_takeWhile_dropWhile, List.takeWhile_eq_self_iff.2 hm,
    List.dropWhile_eq_nil_iff.2 hm]
  dsimp only
  rw [hs]
  dsimp only
  rw [hp, hd]
  simp [p.whole_ne_nil, readExponent, decimal]

end Positional

/-- A decimal is written positionally, and its digits spell the same number. -/
theorem Decimal.exists_positional (d : Decimal) :
    ∃ p : Positional, p.text = d.text ∧ p.decimal.value = d.value := by
  have hw : ∀ n, ∀ c ∈ Nat.toDigits 10 n, c.isDigit := fun n c =>
    Nat.isDigit_of_mem_toDigits (by decide) (by decide)
  obtain ⟨digits, exponent⟩ := d
  cases exponent with
  | ofNat n =>
    refine ⟨⟨_, [], Nat.toDigits_ne_nil, hw (digits * 10 ^ n), by simp⟩, rfl, ?_⟩
    simp [Positional.decimal, Decimal.value, ofDigits_toDigits]
  | negSucc n =>
    have hlt := Nat.mod_lt digits (by positivity : 0 < 10 ^ (n + 1))
    have hd := isDigit_of_mem_fraction hlt
    have hf := ofDigits_fraction hlt
    unfold text
    dsimp only [Nat.pow_eq]
    generalize fraction (n + 1) (digits % 10 ^ (n + 1)) = ds at *
    refine ⟨⟨_, ds, Nat.toDigits_ne_nil, hw (digits / 10 ^ (n + 1)), hd⟩, ?_, ?_⟩
    · cases ds <;> simp [Positional.text]
    · have hp : (0 : ℚ) < 10 ^ (n + 1) := by positivity
      have hf : (ofDigits ds : ℚ) / 10 ^ ds.length =
          (digits % 10 ^ (n + 1) : ℕ) / 10 ^ (n + 1) := by
        rw [div_eq_div_iff (by positivity) hp.ne']
        exact_mod_cast hf
      have hm : ((digits / 10 ^ (n + 1) : ℕ) : ℚ) * 10 ^ (n + 1) + (digits % 10 ^ (n + 1) : ℕ) =
          digits := by exact_mod_cast Nat.div_add_mod' digits (10 ^ (n + 1))
      simp only [Positional.decimal, value, ofDigits_append, ofDigits_toDigits]
      rw [zero_sub, zpow_neg, zpow_natCast, zpow_negSucc, ← div_eq_mul_inv, ← div_eq_mul_inv,
        Nat.cast_add, Nat.cast_mul, Nat.cast_pow, Nat.cast_ofNat, add_div, hf,
        mul_div_cancel_left₀ _ (by positivity), eq_div_iff hp.ne', add_mul,
        div_mul_cancel₀ _ hp.ne', hm]

end FormulaSheet
