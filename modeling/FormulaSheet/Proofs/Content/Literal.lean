import Mathlib
import FormulaSheet.Proofs.Content
import FormulaSheet.Proofs.Formula.Search

namespace FormulaSheet

variable {rules : Naming} {cs : List Char} {s : String} {x : Float}

/-- A text that reads as a finite number is a numeral after at most one sign, and the sign does not
decide whether the number is finite. -/
theorem finite_unsigned_iff : (∃ x, readNumber cs = some x ∧ x.isFinite) ↔
    Pattern.numeral.Matches (splitSign cs).2 ∧
      ∃ x, readNumber (splitSign cs).2 = some x ∧ x.isFinite := by
  rw [exists_finite_iff, exists_finite_iff]
  constructor
  · rintro ⟨d, hd, hlt⟩
    have hm : Pattern.numeral.Matches (splitSign cs).2 := isSome_readDecimal_iff.1 (by rw [hd]; rfl)
    exact ⟨hm, d, by rwa [splitSign_of_matches hm], hlt⟩
  · rintro ⟨hm, d, hd, hlt⟩
    rw [splitSign_of_matches hm] at hd
    exact ⟨d, hd, hlt⟩

/-- Every numeral reads as a number, if it is too large as infinity. -/
theorem exists_readNumber_of_isNumeral (h : isNumeral s) : ∃ x, readNumber s.toList = some x ∧
    (x.isFinite ∨ x = Binary.signed false Binary.infinityBits) := by
  obtain ⟨d, hd⟩ := Option.isSome_iff_exists.1 (isSome_readDecimal_iff.2 (isNumeral_iff.1 h))
  refine ⟨_, by rw [readNumber_of_isNumeral h, hd, Option.map_some], ?_⟩
  rcases (Binary.nearest_le d).lt_or_eq with hlt | heq
  · exact .inl ((Binary.isFinite_signed_iff false hlt.le).2 hlt)
  · exact .inr (by rw [heq])

namespace Formula

theorem parse_of_isNumeral (h : isNumeral s) (hx : readNumber s.toList = some x) :
    parse rules s = if x.isFinite then .ok ⟨[.number x]⟩ else .error (.numberOutOfRange s) := by
  have hr : Recognised s := ⟨.numeral, h⟩
  rw [parse, hr.tokenize_eq, List.foldlM_cons, Beginning.push, Token.ofText_of_isNumeral h hx]
  cases x.isFinite <;> rfl

theorem evaluate_number (lookup : String → Except EvalError Float) :
    evaluate lookup ⟨[.number x]⟩ = .ok x := rfl

end Formula

namespace Content

/-- The text without the blanks around it and then without one sign in front. -/
def unsigned (input : String) : String := String.ofList (splitSign (trim input.toList)).2

theorem exists_number_iff : (∃ x, parse rules s = .ok (number x)) ↔
    isNumeral (unsigned s) ∧ ∃ x, readNumber (unsigned s).toList = some x ∧ x.isFinite := by
  simp only [parse_eq_ok_iff, Spells, SpellsNumber, isNumeral_iff, unsigned, String.toList_ofList]
  exact finite_unsigned_iff

theorem spellsNumber_of_isNumeral (h : isNumeral s) :
    SpellsNumber s x ↔ readNumber s.toList = some x ∧ x.isFinite := by
  rw [SpellsNumber, trim_eq_self (Recognised.isBlank_eq_false ⟨.numeral, h⟩)]

theorem head?_of_isNumeral (h : isNumeral s) : s.toList.head? ≠ some '=' := by
  obtain ⟨c, cs, hc, hd⟩ := exists_of_isNumeral h
  rw [hc, List.head?_cons, ne_eq, Option.some.injEq]
  exact ne_of_isDigit_or hd (by decide) (by decide)

/-- A cell and a formula agree on what a number is. A cell takes a text for one if it is a numeral,
blanks around it and a sign aside, and not too large; and a numeral stands for one double in a cell
and in a formula, or is too large for both. -/
theorem parse_literal (rules : Naming) (s : String) :
    ((∃ x, parse rules s = .ok (number x)) ↔
      isNumeral (unsigned s) ∧ ∃ x, readNumber (unsigned s).toList = some x ∧ x.isFinite) ∧
    (isNumeral s → ∃ x, readNumber s.toList = some x ∧
      (x.isFinite ∧ parse rules s = .ok (number x) ∧
          (∃ f, parse rules ("=" ++ s) = .ok (formula f) ∧ ∀ lookup, f.evaluate lookup = .ok x) ∨
        x.isInf ∧ parse rules s = .ok (text s) ∧
          parse rules ("=" ++ s) = .error (.numberOutOfRange s))) := by
  refine ⟨exists_number_iff, fun h => ?_⟩
  obtain ⟨x, hx, hf | rfl⟩ := exists_readNumber_of_isNumeral h
  · refine ⟨x, hx, .inl ⟨hf, parse_eq_ok_iff.2 ((spellsNumber_of_isNumeral h).2 ⟨hx, hf⟩), ?_⟩⟩
    refine ⟨⟨[.number x]⟩, ?_, Formula.evaluate_number⟩
    rw [parse_equals, Formula.parse_of_isNumeral h hx, if_pos hf]
    rfl
  · refine ⟨_, hx, .inr ⟨by decide, parse_eq_ok_iff.2 ⟨rfl, head?_of_isNumeral h, ?_⟩, ?_⟩⟩
    · intro y hy
      obtain ⟨hy, hf⟩ := (spellsNumber_of_isNumeral h).1 hy
      obtain rfl := Option.some.inj (hx.symm.trans hy)
      exact absurd hf (by decide)
    · rw [parse_equals, Formula.parse_of_isNumeral h hx, if_neg (by decide)]
      rfl

/-- Blanks and a sign are no part of the numeral, and a numeral can be too large. -/
theorem parse_literal_three :
    (∃ x, parse {} " -7 " = .ok (number x)) ∧
      (∃ x f, parse {} "7" = .ok (number x) ∧ parse {} "=7" = .ok (formula f) ∧
        ∀ lookup, f.evaluate lookup = .ok x) ∧
      parse {} "1e999" = .ok (text "1e999") ∧
      parse {} "=1e999" = .error (.numberOutOfRange "1e999") := by
  have hunsigned : unsigned " -7 " = "7" := by cbv
  have hseven : isNumeral "7" ∧ readDecimal "7".toList = some ⟨7, 0⟩ := ⟨by cbv, by cbv⟩
  have hx : readNumber "7".toList = some (Binary.signed false (Binary.nearest ⟨7, 0⟩)) := by
    rw [readNumber_of_isNumeral hseven.1, hseven.2]
    rfl
  have hf : (Binary.signed false (Binary.nearest ⟨7, 0⟩)).isFinite :=
    (Binary.isFinite_signed_iff false (Binary.nearest_le _)).2 (by decide)
  have hlarge : readNumber "1e999".toList = some (Binary.signed false Binary.infinityBits) := by cbv
  obtain ⟨hnumber, -⟩ := parse_literal {} " -7 "
  obtain ⟨-, hfinite⟩ := parse_literal {} "7"
  obtain ⟨-, hinfinite⟩ := parse_literal {} "1e999"
  refine ⟨hnumber.2 ⟨hunsigned ▸ hseven.1, _, hunsigned ▸ hx, hf⟩, ?_, ?_⟩
  · obtain ⟨x, -, ⟨-, hn, f, hf, hv⟩ | ⟨-, hn, -⟩⟩ := hfinite hseven.1
    · exact ⟨x, f, hn, hf, hv⟩
    · have := (parse_eq_ok_iff.1 hn).2.2 _ ((spellsNumber_of_isNumeral hseven.1).2 ⟨hx, hf⟩)
      exact this.elim
  · obtain ⟨x, hy, ⟨hf, -⟩ | ⟨-, h⟩⟩ := hinfinite (by cbv)
    · obtain rfl := Option.some.inj (hlarge.symm.trans hy)
      exact absurd hf (by decide)
    · exact h

end Content

end FormulaSheet
