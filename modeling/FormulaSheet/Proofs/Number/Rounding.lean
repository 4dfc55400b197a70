import FormulaSheet.Number.Shortest
import Mathlib.Algebra.Order.Field.Power
import Mathlib.Algebra.Order.Floor.Semifield
import Mathlib.Data.Int.Log
import Mathlib.Data.Rat.Floor

namespace FormulaSheet

def Decimal.value (d : Decimal) : ℚ := d.digits * 10 ^ d.exponent

namespace Binary

variable {num den bits : ℕ} {q : ℚ}

/-- The nearest natural number, a half going to the even neighbour. -/
def roundRat (q : ℚ) : ℕ :=
  if 2 * (q - ⌊q⌋₊) < 1 then ⌊q⌋₊
  else if 1 < 2 * (q - ⌊q⌋₊) then ⌊q⌋₊ + 1
  else ⌊q⌋₊ + ⌊q⌋₊ % 2

/-- The power of two that the last bit of the significand counts. -/
def unitLog (q : ℚ) : ℤ := max (Int.log 2 q - 52) (-1074)

def nearestRat (q : ℚ) : ℕ :=
  if q = 0 then 0
  else min ((unitLog q + 1074).toNat * binade + roundRat (q / 2 ^ unitLog q)) infinityBits

theorem roundRat_natCast (n : ℕ) : roundRat n = n := by
  simp [roundRat]

theorem le_roundRat {n : ℕ} (h : (n : ℚ) ≤ q) : n ≤ roundRat q := by
  have := Nat.le_floor h
  unfold roundRat
  split
  · exact this
  · split <;> omega

theorem roundRat_eq_zero (h : 2 * q < 1) : roundRat q = 0 := by
  have hf : ⌊q⌋₊ = 0 := Nat.floor_eq_zero.2 (by linarith)
  simp [roundRat, hf, h]

theorem roundDiv_eq (h : 0 < den) : roundDiv num den = roundRat (num / den) := by
  have hf : ⌊(num : ℚ) / den⌋₊ = num / den := Nat.floor_div_eq_div num den
  have hd : (0 : ℚ) < den := by exact_mod_cast h
  have hr : (num : ℚ) / den - (num / den : ℕ) = (num % den : ℕ) / den := by
    rw [eq_div_iff hd.ne', sub_mul, div_mul_cancel₀ _ hd.ne', sub_eq_iff_eq_add]
    exact_mod_cast (Nat.mod_add_div' num den).symm
  have hlt : 2 * ((num : ℚ) / den - (num / den : ℕ)) < 1 ↔ 2 * (num % den) < den := by
    rw [hr, ← mul_div_assoc, div_lt_one hd]
    exact_mod_cast Iff.rfl
  have hgt : 1 < 2 * ((num : ℚ) / den - (num / den : ℕ)) ↔ den < 2 * (num % den) := by
    rw [hr, ← mul_div_assoc, one_lt_div hd]
    exact_mod_cast Iff.rfl
  simp only [roundDiv, roundRat, hf, hlt, hgt]

theorem scale_pos (k : ℤ) (h : 0 < den) : 0 < (scale num den k).2 :=
  Nat.mul_pos h (Nat.pow_pos (by decide))

theorem scale_eq (num den : ℕ) (k : ℤ) :
    ((scale num den k).1 : ℚ) / (scale num den k).2 = num / den * 2 ^ k := by
  simp only [scale, Nat.pow_eq]
  push_cast
  rw [mul_div_mul_comm, ← zpow_natCast, ← zpow_natCast, ← zpow_sub₀ two_ne_zero]
  congr 2
  omega

theorem le_log_iff {z : ℤ} (hq : 0 < q) : z ≤ Int.log 2 q ↔ 2 ^ z ≤ q := by
  rw [← Int.zpow_le_iff_le_log one_lt_two hq, Nat.cast_ofNat]

theorem log_lt_iff {z : ℤ} (hq : 0 < q) : Int.log 2 q < z ↔ q < 2 ^ z := by
  rw [← Int.lt_zpow_iff_log_lt one_lt_two hq, Nat.cast_ofNat]

theorem log_eq {z : ℤ} (h : 2 ^ z ≤ q) (h' : q < 2 ^ (z + 1)) : Int.log 2 q = z := by
  have hq : 0 < q := (zpow_pos two_pos z).trans_le h
  have := (le_log_iff hq).2 h
  have := (log_lt_iff hq).2 h'
  omega

theorem log2_bounds {n : ℕ} (h : 0 < n) :
    (2 : ℚ) ^ (n.log2 : ℤ) ≤ n ∧ (n : ℚ) < 2 ^ ((n.log2 : ℤ) + 1) := by
  have := (Nat.log2_eq_iff h.ne').1 (rfl : n.log2 = n.log2)
  exact_mod_cast this

theorem log2Div_eq (hn : 0 < num) (hd : 0 < den) :
    log2Div num den = Int.log 2 ((num : ℚ) / den) := by
  obtain ⟨hn₁, hn₂⟩ := log2_bounds hn
  obtain ⟨hd₁, hd₂⟩ := log2_bounds hd
  have hd₀ : (0 : ℚ) < den := by exact_mod_cast hd
  have hlow : (2 : ℚ) ^ ((num.log2 : ℤ) - den.log2 - 1) < num / den := by
    rw [sub_sub, zpow_sub₀ two_ne_zero]
    exact div_lt_div₀' hn₁ hd₂ (by exact_mod_cast hn) hd₀
  have hhigh : (num : ℚ) / den < 2 ^ ((num.log2 : ℤ) - den.log2 + 1) := by
    rw [sub_add_eq_add_sub, zpow_sub₀ two_ne_zero]
    exact div_lt_div₀ hn₂ hd₁ (by positivity) (by positivity)
  unfold log2Div
  generalize (num.log2 : ℤ) - den.log2 = k at *
  have hk : (scale num den (-k)).1 < (scale num den (-k)).2 ↔ (num : ℚ) / den < 2 ^ k := by
    have hs : (0 : ℚ) < (scale num den (-k)).2 := by exact_mod_cast scale_pos (-k) hd
    rw [← Nat.cast_lt (α := ℚ), ← div_lt_one hs, scale_eq, zpow_neg, ← div_eq_mul_inv,
      div_lt_one (by positivity)]
  dsimp only
  split
  · next h =>
    refine (log_eq hlow.le ?_).symm
    rw [sub_add_cancel]
    exact hk.1 h
  · next h => exact (log_eq (not_lt.1 (mt hk.2 h)) hhigh).symm

theorem nearestDiv_eq (hd : 0 < den) : nearestDiv num den = nearestRat (num / den) := by
  rcases Nat.eq_zero_or_pos num with rfl | hn
  · simp [nearestDiv, nearestRat]
  have hq : (num : ℚ) / den ≠ 0 := by positivity
  have hu : (if log2Div num den < -1022 then -1074 else log2Div num den - 52) =
      unitLog ((num : ℚ) / den) := by
    rw [unitLog, ← log2Div_eq hn hd]
    split <;> omega
  unfold nearestDiv nearestRat
  rw [if_neg hn.ne', if_neg hq]
  dsimp only
  rw [hu, roundDiv_eq (scale_pos _ hd), scale_eq, zpow_neg, ← div_eq_mul_inv, min_def]
  split <;> split <;> omega

/-- All numbers beyond the largest double are rounded to infinity. -/
theorem nearestRat_of_le (h : 2 ^ (1024 : ℤ) ≤ q) : nearestRat q = infinityBits := by
  have hq : 0 < q := (zpow_pos two_pos _).trans_le h
  have hl : 1024 ≤ Int.log 2 q := (le_log_iff hq).2 h
  have hu : unitLog q = Int.log 2 q - 52 := by
    rw [unitLog]
    omega
  have hr : binade ≤ roundRat (q / 2 ^ unitLog q) := by
    apply le_roundRat
    rw [hu, le_div_iff₀ (by positivity)]
    calc (binade : ℚ) * 2 ^ (Int.log 2 q - 52) = 2 ^ (52 : ℤ) * 2 ^ (Int.log 2 q - 52) := by
          norm_num [binade]
      _ = 2 ^ Int.log 2 q := by rw [← zpow_add₀ two_ne_zero]; congr 1; omega
      _ ≤ q := (le_log_iff hq).1 le_rfl
  rw [nearestRat, if_neg hq.ne', min_eq_right]
  have : 2046 ≤ (unitLog q + 1074).toNat := by omega
  simp only [infinityBits, binade] at *
  omega

/-- Less than half of the smallest double is rounded to zero. -/
theorem nearestRat_of_lt (h0 : 0 < q) (h : q < 2 ^ (-1075 : ℤ)) : nearestRat q = 0 := by
  have hl : Int.log 2 q < -1075 := (log_lt_iff h0).2 h
  have hu : unitLog q = -1074 := by
    rw [unitLog]
    omega
  have hr : roundRat (q / 2 ^ (-1074 : ℤ)) = 0 := by
    apply roundRat_eq_zero
    rw [← mul_div_assoc, div_lt_one (zpow_pos two_pos _)]
    calc 2 * q < 2 * 2 ^ (-1075 : ℤ) := by linarith
      _ = 2 ^ (-1074 : ℤ) := by rw [← zpow_one_add₀ two_ne_zero]; rfl
  rw [nearestRat, if_neg h0.ne', hu, hr]
  rfl

theorem two_zpow_le_ten_zpow {k : ℤ} (hk : 0 ≤ k) : (2 : ℚ) ^ (3 * k) ≤ 10 ^ k := by
  rw [zpow_mul]
  exact zpow_le_zpow_left₀ hk (by norm_num) (by norm_num)

theorem ten_zpow_le_two_zpow {k : ℤ} (hk : k ≤ 0) : (10 : ℚ) ^ k ≤ 2 ^ (3 * k) := by
  have := two_zpow_le_ten_zpow (Int.neg_nonneg_of_nonpos hk)
  rw [mul_neg, zpow_neg, zpow_neg] at this
  exact (inv_le_inv₀ (by positivity) (by positivity)).1 this

/-- The double nearest to a decimal depends only on the number that the decimal spells: the
exponents that are settled at once are settled right. -/
theorem nearest_eq (d : Decimal) : nearest d = nearestRat d.value := by
  rcases Nat.eq_zero_or_pos d.digits with hd | hd
  · simp [nearest, Decimal.value, hd, nearestRat]
  unfold nearest
  rw [if_neg hd.ne']
  split
  · next h =>
    symm
    apply nearestRat_of_le
    calc (2 : ℚ) ^ (1024 : ℤ) ≤ 2 ^ (3 * d.exponent) :=
          zpow_le_zpow_right₀ one_le_two (by omega)
      _ ≤ 10 ^ d.exponent := two_zpow_le_ten_zpow (by omega)
      _ ≤ d.value := le_mul_of_one_le_left (by positivity) (by exact_mod_cast hd)
  split
  · next h =>
    symm
    apply nearestRat_of_lt
    · unfold Decimal.value
      positivity
    calc d.value ≤ d.digits * 2 ^ (3 * d.exponent) :=
          mul_le_mul_of_nonneg_left (ten_zpow_le_two_zpow (by omega)) (by positivity)
      _ < 2 ^ ((d.digits.log2 : ℤ) + 1) * 2 ^ (3 * d.exponent) :=
          mul_lt_mul_of_pos_right (log2_bounds hd).2 (by positivity)
      _ = 2 ^ ((d.digits.log2 : ℤ) + 1 + 3 * d.exponent) := (zpow_add₀ two_ne_zero _ _).symm
      _ ≤ 2 ^ (-1075 : ℤ) := zpow_le_zpow_right₀ one_le_two (by omega)
  · have he : (((d.digits * Nat.pow 10 d.exponent.toNat : ℕ) : ℚ)) /
        (Nat.pow 10 (-d.exponent).toNat : ℕ) = d.value := by
      have hs : (d.exponent.toNat : ℤ) - (-d.exponent).toNat = d.exponent := by omega
      simp only [Nat.pow_eq, Nat.cast_mul, Nat.cast_pow, Nat.cast_ofNat]
      rw [Decimal.value, mul_div_assoc, ← zpow_natCast, ← zpow_natCast,
        ← zpow_sub₀ (by norm_num), hs]
    have hp : 0 < Nat.pow 10 (-d.exponent).toNat := Nat.pow_pos (by decide)
    rw [nearestDiv_eq hp, he]

def magnitude (bits : ℕ) : ℚ := significand bits * 2 ^ exponent bits

theorem significand_of_lt (h : bits < binade) : significand bits = bits := if_pos h

theorem significand_of_le (h : binade ≤ bits) : significand bits = binade + bits % binade :=
  if_neg h.not_gt

theorem exponent_of_lt (h : bits < binade) : exponent bits = -1074 := if_pos h

theorem exponent_of_le (h : binade ≤ bits) : exponent bits = (bits / binade : ℕ) - 1075 :=
  if_neg h.not_gt

theorem cast_binade : (binade : ℚ) = 2 ^ (52 : ℤ) := by norm_num [binade]

theorem unitLog_magnitude (h0 : 0 < bits) : unitLog (magnitude bits) = exponent bits := by
  rcases Nat.lt_or_ge bits binade with h | h
  · have hlog : Int.log 2 (magnitude bits) < 52 + -1074 := by
      rw [magnitude, significand_of_lt h, exponent_of_lt h, log_lt_iff (by positivity),
        zpow_add₀ two_ne_zero, ← cast_binade]
      exact mul_lt_mul_of_pos_right (by exact_mod_cast h) (by positivity)
    rw [unitLog, exponent_of_lt h]
    omega
  · have hlog : Int.log 2 (magnitude bits) = 52 + exponent bits := by
      have hm := Nat.mod_lt bits (by decide : 0 < binade)
      rw [magnitude, significand_of_le h]
      refine log_eq ?_ ?_
      · rw [zpow_add₀ two_ne_zero, ← cast_binade]
        exact mul_le_mul_of_nonneg_right (by exact_mod_cast Nat.le_add_right _ _) (by positivity)
      · rw [add_right_comm, zpow_add₀ two_ne_zero, zpow_add₀ two_ne_zero, ← cast_binade, zpow_one,
          mul_two]
        exact mul_lt_mul_of_pos_right (by exact_mod_cast Nat.add_lt_add_left hm _) (by positivity)
    have he : 1 ≤ bits / binade := (Nat.one_le_div_iff (by decide)).2 h
    rw [unitLog, hlog, exponent_of_le h]
    omega

/-- Finite bits are nearest to the number that they stand for. -/
theorem nearestRat_magnitude (h : bits < infinityBits) : nearestRat (magnitude bits) = bits := by
  rcases Nat.eq_zero_or_pos bits with rfl | h0
  · rw [nearestRat, if_pos]
    rw [magnitude, significand_of_lt (by decide), Nat.cast_zero, zero_mul]
  have hs : 0 < significand bits := by
    rcases Nat.lt_or_ge bits binade with hb | hb
    · rwa [significand_of_lt hb]
    · rw [significand_of_le hb]
      exact Nat.add_pos_left (by decide) _
  have hr : magnitude bits / 2 ^ exponent bits = significand bits :=
    mul_div_cancel_right₀ _ (zpow_ne_zero _ two_ne_zero)
  have hq : magnitude bits ≠ 0 :=
    mul_ne_zero (by exact_mod_cast hs.ne') (zpow_ne_zero _ two_ne_zero)
  have hb : (exponent bits + 1074).toNat * binade + significand bits = bits := by
    rcases Nat.lt_or_ge bits binade with hb | hb
    · rw [significand_of_lt hb, exponent_of_lt hb]
      exact Nat.zero_add bits
    · rw [significand_of_le hb, exponent_of_le hb]
      simp only [binade] at *
      omega
  rw [nearestRat, if_neg hq, unitLog_magnitude h0, hr, roundRat_natCast, hb, min_eq_left h.le]

theorem value_exact (bits : ℕ) : (exact bits).value = magnitude bits := by
  unfold exact magnitude
  split
  · next n hn =>
    simp only [Decimal.value, hn, Nat.pow_eq]
    push_cast
    rw [mul_one]
    rfl
  · next n hn =>
    simp only [Decimal.value, hn, Nat.pow_eq]
    push_cast
    rw [zpow_negSucc, zpow_negSucc, mul_assoc, ← div_eq_mul_inv, ← div_pow, ← inv_pow]
    norm_num

theorem nearest_onGrid? {k : ℤ} {d : Decimal} (h : onGrid? bits k = some d) :
    nearest d = bits := by
  -- Which neighbour comes first does not matter, as each is tested.
  have htested : ∀ c : Decimal × Decimal, (if nearest c.1 = bits then some c.1
      else if nearest c.2 = bits then some c.2 else none) = some d → nearest d = bits := by
    intro c hc
    split at hc
    · next hn => exact Option.some.inj hc ▸ hn
    · split at hc
      · next hf => exact Option.some.inj hc ▸ hf
      · simp at hc
  exact htested _ h

/-- The digits that are printed for a double read back as it. -/
theorem nearest_shortest (h : bits < infinityBits) : nearest (shortest bits) = bits := by
  unfold shortest
  split
  · next h0 =>
    rw [h0]
    rfl
  cases hf : (List.range 21).findSome? fun i : ℕ => onGrid? bits (ceilLog10 bits - i) with
  | none => rw [Option.getD_none, nearest_eq, value_exact, nearestRat_magnitude h]
  | some d =>
    obtain ⟨i, -, hi⟩ := List.exists_of_findSome?_eq_some hf
    exact nearest_onGrid? hi

end Binary

end FormulaSheet
