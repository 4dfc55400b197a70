import FormulaSheet.Proofs.Number.Numeral

namespace FormulaSheet

theorem Positional.matches_numeral (p : Positional) : Pattern.numeral.Matches p.text :=
  isSome_readDecimal_iff.1 (by rw [p.readDecimal_text]; rfl)

def signText (negative : Bool) : List Char := if negative then ['-'] else []

theorem splitSign_signText {cs : List Char} (h : Pattern.numeral.Matches cs) (negative : Bool) :
    splitSign (signText negative ++ cs) = (signText negative, cs) := by
  cases negative with
  | true => rfl
  | false => exact splitSign_of_matches h

/-- The text of a finite double is a positional text, after a sign if it is below zero, and the
double is the nearest to it. -/
theorem exists_positional_numberText {x : Float} (h : x.isFinite) :
    ∃ (negative : Bool) (p : Positional),
      numberText x = String.ofList (signText negative ++ p.text) ∧
      Binary.signed negative (Binary.nearest p.decimal) = x ∧
      (negative = false ↔ x.toBits.toNat < Binary.signBit) := by
  have hlt := Binary.isFinite_iff.1 h
  obtain ⟨p, hp, hv⟩ := (Binary.shortest (x.toBits.toNat % Binary.signBit)).exists_positional
  refine ⟨!decide (x.toBits.toNat < Binary.signBit), p, ?_, ?_, by simp⟩
  · unfold numberText
    rw [Binary.isNaN_of_isFinite h, if_neg (by simp)]
    dsimp only
    rw [if_neg hlt.ne, hp, signText]
    by_cases hs : x.toBits.toNat < Binary.signBit <;> simp [hs]
  · rw [Binary.nearest_eq, hv, ← Binary.nearest_eq, Binary.nearest_shortest hlt,
      Binary.signed_toBits]

/-- What is printed for a finite double reads back as it. -/
theorem readNumber_numberText {x : Float} (h : x.isFinite) :
    readNumber (numberText x).toList = some x := by
  obtain ⟨negative, p, ht, hx, -⟩ := exists_positional_numberText h
  have hs := splitSign_signText p.matches_numeral negative
  have hd : readDecimal (splitSign (signText negative ++ p.text)).2 = some p.decimal := by
    rw [hs, p.readDecimal_text]
  rw [ht, String.toList_ofList, readNumber_of_readDecimal hd, hs, ← hx]
  cases negative <;> rfl

end FormulaSheet
