import Mathlib
import FormulaSheet.Proofs.Formula.Recognition
import FormulaSheet.Proofs.Number.Double
import FormulaSheet.Proofs.Number.Positional

namespace FormulaSheet

open Pattern

variable {c e : Char} {cs m whole sign ds tail : List Char} {d : Decimal} {raw : String}

section Signs

theorem ne_of_isDigit_or {c d : Char} (hc : c.isDigit ∨ c = '.') (hd : d.isDigit = false)
    (hp : d ≠ '.') : c ≠ d := by
  rintro rfl
  simp [hd, hp] at hc

theorem splitSign_fst_mem (cs : List Char) : (splitSign cs).1 ∈ [[], ['+'], ['-']] := by
  unfold splitSign
  split <;> simp

theorem exists_of_matches_numeral (h : numeral.Matches cs) :
    ∃ c cs', cs = c :: cs' ∧ (c.isDigit ∨ c = '.') := by
  have hn : isNumeral (String.ofList cs) := isNumeral_iff.2 (by rwa [String.toList_ofList])
  obtain ⟨c, cs', hc, hd⟩ := exists_of_isNumeral hn
  exact ⟨c, cs', by rwa [String.toList_ofList] at hc, hd⟩

/-- A numeral has no sign of its own. -/
theorem splitSign_of_matches (h : numeral.Matches cs) : splitSign cs = ([], cs) := by
  obtain ⟨c, cs, rfl, hc⟩ := exists_of_matches_numeral h
  have hp : c ≠ '+' := ne_of_isDigit_or hc (by decide) (by decide)
  have hm : c ≠ '-' := ne_of_isDigit_or hc (by decide) (by decide)
  simp [splitSign, hp, hm]

end Signs

section Grammar

theorem mantissa_of_digits (hw : ∀ c ∈ whole, c.isDigit)
    (h : whole ≠ [] ∧ m = whole ∨ ∃ places, (∀ c ∈ places, c.isDigit) ∧
      (whole ≠ [] ∨ places ≠ []) ∧ m = whole ++ '.' :: places) : mantissa.Matches m := by
  rcases h with ⟨hne, rfl⟩ | ⟨places, hp, hne | hne, rfl⟩
  · exact .inr (.inr (matches_many_iff.2 ⟨hne, hw⟩))
  · exact .inl ⟨whole, _, rfl, matches_many_iff.2 ⟨hne, hw⟩, ['.'], places, rfl,
      ⟨'.', rfl, rfl⟩, hp⟩
  · exact .inr (.inl ⟨whole, _, rfl, hw, ['.'], places, rfl, ⟨'.', rfl, rfl⟩,
      matches_many_iff.2 ⟨hne, hp⟩⟩)

theorem exponent_of_digits (he : e = 'e' ∨ e = 'E') (hs : sign ∈ [[], ['+'], ['-']])
    (hne : ds ≠ []) (hd : ∀ c ∈ ds, c.isDigit) : exponent.Matches (e :: (sign ++ ds)) := by
  refine ⟨[e], _, rfl, ⟨e, rfl, by simpa using he⟩, sign, ds, rfl, ?_,
    matches_many_iff.2 ⟨hne, hd⟩⟩
  simp only [List.mem_cons, List.not_mem_nil, or_false] at hs
  rcases hs with rfl | rfl | rfl
  · exact .inr rfl
  · exact .inl ⟨'+', rfl, rfl⟩
  · exact .inl ⟨'-', rfl, rfl⟩

/-- Digits before and after the first point, if there is one, make a mantissa. -/
theorem matches_mantissa_iff : mantissa.Matches m ↔
    m.takeWhile (· != '.') ++ (m.dropWhile (· != '.')).drop 1 ≠ [] ∧
      ∀ c ∈ m.takeWhile (· != '.') ++ (m.dropWhile (· != '.')).drop 1, c.isDigit := by
  constructor
  · intro h
    obtain ⟨whole, hw, h⟩ := mantissa_cases h
    have hpoint : ∀ c ∈ whole, (c != '.') = true := by
      intro c hc
      simp [Positional.ne_of_isDigit (hw c hc)]
    rcases h with ⟨hne, rfl⟩ | ⟨places, hp, hne, rfl⟩
    · rw [List.takeWhile_eq_self_iff.2 hpoint, List.dropWhile_eq_nil_iff.2 hpoint, List.drop_nil,
        List.append_nil]
      exact ⟨hne, hw⟩
    · rw [takeWhile_run hpoint (by simp), dropWhile_run hpoint (by simp)]
      refine ⟨?_, fun c hc => (List.mem_append.1 hc).elim (hw c) (hp c)⟩
      simpa [or_iff_not_imp_left] using hne
  · rintro ⟨hne, hd⟩
    have hm := List.takeWhile_append_dropWhile (p := (· != '.')) (l := m)
    have hhead := List.head?_dropWhile_not (· != '.') m
    generalize m.takeWhile (· != '.') = whole at *
    generalize m.dropWhile (· != '.') = rest at *
    have hw : ∀ c ∈ whole, c.isDigit := fun c hc => hd c (List.mem_append_left _ hc)
    refine mantissa_of_digits hw ?_
    cases rest with
    | nil => exact .inl ⟨by simpa using hne, by simpa using hm.symm⟩
    | cons c places =>
      obtain rfl : c = '.' := by simpa using hhead
      have hp : ∀ c ∈ places, c.isDigit := fun c hc => hd c (List.mem_append_right _ hc)
      exact .inr ⟨places, hp, by simpa [or_iff_not_imp_left] using hne, hm.symm⟩

theorem ne_of_mem_mantissa (h : mantissa.Matches m) :
    ∀ c ∈ m, (c != 'e' && c != 'E') = true := by
  have hdigit : ∀ c : Char, c.isDigit → (c != 'e' && c != 'E') = true := by
    intro c hc
    simp [Positional.ne_of_isDigit hc]
  obtain ⟨whole, hw, ⟨-, rfl⟩ | ⟨places, hp, -, rfl⟩⟩ := mantissa_cases h
  · exact fun c hc => hdigit c (hw c hc)
  · intro c hc
    rcases List.mem_append.1 hc with hc | hc
    · exact hdigit c (hw c hc)
    · rcases List.mem_cons.1 hc with rfl | hc
      · rfl
      · exact hdigit c (hp c hc)

/-- The exponent of a numeral begins at the first letter for one. -/
theorem matches_numeral_iff : numeral.Matches cs ↔
    mantissa.Matches (cs.takeWhile fun c => c != 'e' && c != 'E') ∧
      (exponent.Matches (cs.dropWhile fun c => c != 'e' && c != 'E') ∨
        cs.dropWhile (fun c => c != 'e' && c != 'E') = []) := by
  constructor
  · rintro ⟨m, x, rfl, hm, hx⟩
    have hhead : ∀ c ∈ x.head?, (c != 'e' && c != 'E') = false := by
      rcases hx with hx | rfl
      · obtain ⟨e, sign, ds, he, -, -, -, rfl⟩ := exponent_cases hx
        rintro c ⟨⟩
        rcases he with rfl | rfl <;> rfl
      · simp
    rw [takeWhile_run (ne_of_mem_mantissa hm) hhead, dropWhile_run (ne_of_mem_mantissa hm) hhead]
    exact ⟨hm, hx⟩
  · rintro ⟨hm, hx⟩
    exact ⟨_, _, List.takeWhile_append_dropWhile.symm, hm, hx⟩

end Grammar

section Reading

theorem readExponent_cons (c : Char) (cs : List Char) : readExponent (c :: cs) =
    if (splitSign cs).2.isEmpty || !(splitSign cs).2.all Char.isDigit then none
    else some (if (splitSign cs).1 = ['-'] then -(Decimal.ofDigits (splitSign cs).2 : Int)
      else Decimal.ofDigits (splitSign cs).2) := by
  unfold readExponent splitSign
  cases cs with
  | nil => rfl
  | cons d ds =>
    by_cases hm : d = '-'
    · subst hm
      rfl
    by_cases hp : d = '+'
    · subst hp
      rfl
    · simp [hm, hp]

/-- What follows the mantissa is read if it is an exponent or nothing. -/
theorem isSome_readExponent_iff (h : ∀ c ∈ tail.head?, c = 'e' ∨ c = 'E') :
    (readExponent tail).isSome ↔ exponent.Matches tail ∨ tail = [] := by
  cases tail with
  | nil => simp [readExponent]
  | cons c cs =>
    rw [readExponent_cons]
    constructor
    · intro hs
      have hcond : ¬((splitSign cs).2.isEmpty || !(splitSign cs).2.all Char.isDigit) = true := by
        intro hc
        rw [if_pos hc] at hs
        cases hs
      simp only [Bool.or_eq_true, not_or, Bool.not_eq_true', List.isEmpty_iff, Bool.not_eq_false,
        List.all_eq_true] at hcond
      rw [← splitSign_append cs]
      exact .inl (exponent_of_digits (h c rfl) (splitSign_fst_mem cs) hcond.1 hcond.2)
    · rintro (hx | hx)
      · obtain ⟨e, sign, ds, -, hs, hne, hd, he⟩ := exponent_cases hx
        obtain ⟨-, rfl⟩ := List.cons.inj he
        have hsplit : splitSign (sign ++ (ds ++ [])) = (sign, ds ++ []) :=
          splitSign_digits hs hne hd
        rw [List.append_nil] at hsplit
        rw [hsplit, if_neg]
        · rfl
        · simpa [hne] using hd
      · cases hx

/-- The reader of numbers accepts what the scanner takes for a numeral. -/
theorem isSome_readDecimal_iff : (readDecimal cs).isSome ↔ numeral.Matches cs := by
  have htail : ∀ c ∈ (cs.dropWhile fun c => c != 'e' && c != 'E').head?, c = 'e' ∨ c = 'E' := by
    intro c hc
    have hhead := List.head?_dropWhile_not (fun c => c != 'e' && c != 'E') cs
    rw [hc] at hhead
    simpa [or_iff_not_imp_left] using hhead
  rw [matches_numeral_iff, matches_mantissa_iff, ← isSome_readExponent_iff htail, readDecimal]
  simp only [List.span_eq_takeWhile_dropWhile]
  generalize (cs.takeWhile fun c => c != 'e' && c != 'E') = m
  generalize m.takeWhile (· != '.') ++ (m.dropWhile (· != '.')).drop 1 = ds
  rw [← List.isEmpty_eq_false_iff, ← List.all_eq_true]
  cases ds.isEmpty <;> cases ds.all Char.isDigit <;> simp

theorem ofList_map_toLower_ne {c d : Char} (h : c.toLower ≠ d) (cs ds : List Char) :
    String.ofList ((c :: cs).map Char.toLower) ≠ String.ofList (d :: ds) := by
  intro he
  rw [String.ofList_inj, List.map_cons] at he
  exact h (List.cons.inj he).1

theorem readMagnitude_of_toLower_ne {c : Char} (h : c.toLower ≠ 'i') (cs : List Char) :
    readMagnitude (c :: cs) = (readDecimal (c :: cs)).map Binary.nearest := by
  have hinf := ofList_map_toLower_ne h cs ['n', 'f']
  have hinfinity := ofList_map_toLower_ne h cs "nfinity".toList
  exact if_neg (not_or.2 ⟨hinf, hinfinity⟩)

theorem toLower_of_isDigit_or {c : Char} (h : c.isDigit ∨ c = '.') : c.toLower = c := by
  rcases h with h | rfl
  · unfold Char.toLower
    rw [dif_neg]
    intro hu
    simp [Char.isDigit, UInt32.le_iff_toNat_le] at h hu
    omega
  · rfl

theorem readNumber_eq (cs : List Char) : readNumber cs =
    if String.ofList ((splitSign cs).2.map Char.toLower) = "nan" then some (0 / 0)
    else (readMagnitude (splitSign cs).2).map (Binary.signed ((splitSign cs).1 = ['-'])) := by
  unfold readNumber splitSign
  cases cs with
  | nil => rfl
  | cons d ds =>
    by_cases hm : d = '-'
    · subst hm
      rfl
    by_cases hp : d = '+'
    · subst hp
      rfl
    · simp [hm, hp]

/-- What does not begin as a word does is read as a decimal, after a sign or without. -/
theorem readNumber_of_toLower_ne (h : (splitSign cs).2 = c :: ds) (hn : c.toLower ≠ 'n')
    (hi : c.toLower ≠ 'i') : readNumber cs = (readDecimal (c :: ds)).map fun d =>
      Binary.signed ((splitSign cs).1 = ['-']) (Binary.nearest d) := by
  have hnan := ofList_map_toLower_ne hn ds ['a', 'n']
  rw [readNumber_eq, h, if_neg hnan, readMagnitude_of_toLower_ne hi, Option.map_map]
  rfl

/-- A numeral is read as the double that is nearest to it. -/
theorem readNumber_of_readDecimal (h : readDecimal (splitSign cs).2 = some d) :
    readNumber cs = some (Binary.signed ((splitSign cs).1 = ['-']) (Binary.nearest d)) := by
  have hm : numeral.Matches (splitSign cs).2 := isSome_readDecimal_iff.1 (by rw [h]; rfl)
  obtain ⟨c, ds, hc, hd⟩ := exists_of_matches_numeral hm
  have hl := toLower_of_isDigit_or hd
  have hn : c.toLower ≠ 'n' := hl.trans_ne (ne_of_isDigit_or hd (by decide) (by decide))
  have hi : c.toLower ≠ 'i' := hl.trans_ne (ne_of_isDigit_or hd (by decide) (by decide))
  rw [readNumber_of_toLower_ne hc hn hi, ← hc, h, Option.map_some]

theorem readNumber_of_isNumeral (h : isNumeral raw) : readNumber raw.toList =
    (readDecimal raw.toList).map fun d => Binary.signed false (Binary.nearest d) := by
  obtain ⟨d, hd⟩ := Option.isSome_iff_exists.1 (isSome_readDecimal_iff.2 (isNumeral_iff.1 h))
  have hs := splitSign_of_matches (isNumeral_iff.1 h)
  rw [readNumber_of_readDecimal (by rwa [hs]), hs, hd]
  rfl

theorem Binary.nearest_le (d : Decimal) : nearest d ≤ infinityBits := by
  rw [nearest_eq, nearestRat]
  split
  · exact Nat.zero_le _
  · exact min_le_right _ _

theorem Binary.isFinite_signed_iff {bits : Nat} (negative : Bool) (h : bits ≤ infinityBits) :
    (signed negative bits).isFinite ↔ bits < infinityBits := by
  rw [isFinite_iff, toNat_toBits_signed negative h]
  simp only [infinityBits, signBit, binade] at *
  split <;> omega

/-- The words aside, what reads as a number is a numeral after its sign, and the number is finite
unless the numeral is too large. -/
theorem exists_finite_iff : (∃ x, readNumber cs = some x ∧ x.isFinite) ↔
    ∃ d, readDecimal (splitSign cs).2 = some d ∧ Binary.nearest d < Binary.infinityBits := by
  constructor
  · rintro ⟨x, hx, hf⟩
    rw [readNumber_eq] at hx
    split at hx
    · obtain rfl := Option.some.inj hx
      exact absurd hf (by decide)
    · obtain ⟨bits, hb, rfl⟩ := Option.map_eq_some_iff.1 hx
      unfold readMagnitude at hb
      dsimp only at hb
      split at hb
      · obtain rfl := Option.some.inj hb
        exact absurd ((Binary.isFinite_signed_iff _ le_rfl).1 hf) (lt_irrefl _)
      · obtain ⟨d, hd, rfl⟩ := Option.map_eq_some_iff.1 hb
        exact ⟨d, hd, (Binary.isFinite_signed_iff _ (Binary.nearest_le d)).1 hf⟩
  · rintro ⟨d, hd, hlt⟩
    exact ⟨_, readNumber_of_readDecimal hd, (Binary.isFinite_signed_iff _ hlt.le).2 hlt⟩

end Reading

end FormulaSheet
