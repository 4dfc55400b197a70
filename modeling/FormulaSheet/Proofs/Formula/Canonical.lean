import Mathlib
import FormulaSheet.Proofs.Formula.Spelling

namespace FormulaSheet.Formula

variable {rules : Naming} {source source' : String} {f g : Formula}

theorem eq_of_beq (h : parse rules source = .ok f) {rules' : Naming}
    (h' : parse rules' source' = .ok g) (he : f == g) : f = g := by
  have ht : f.text = g.text := beq_iff_eq.1 he
  have hf := parse_text_plain h
  rw [ht, parse_text_plain h'] at hf
  exact (Except.ok.inj hf).symm

/-- The text of a formula stands for it, whatever rules and blanks it was entered with: read again
it gives the same tokens, and so comparing and hashing texts is comparing and hashing formulas. -/
theorem canonical_text (h : parse rules source = .ok f) :
    parse {} f.text = .ok f ∧
    ∀ rules' source' g, parse rules' source' = .ok g →
      ((f == g) = true ↔ f.tokens = g.tokens) ∧
      ((f == g) = true → f.names = g.names ∧ f.text = g.text ∧ hash f = hash g ∧
        (∀ lookup, f.evaluate lookup = g.evaluate lookup) ∧
        ∀ (m : Type → Type) [Monad m] (lookup : String → ExceptT EvalError m Float),
          f.evaluateM lookup = g.evaluateM lookup) := by
  refine ⟨parse_text_plain h, fun rules' source' g h' => ⟨⟨fun he => ?_, fun ht => ?_⟩, ?_⟩⟩
  · rw [eq_of_beq h h' he]
  · obtain rfl : f = g := congrArg mk ht
    exact @beq_self_eq_true String _ _ f.text
  · intro he
    obtain rfl := eq_of_beq h h' he
    exact ⟨rfl, rfl, rfl, fun _ => rfl, fun _ _ _ => rfl⟩

/-- Without blanks the name does not go on into an exponent. -/
theorem canonical_text_uppercase :
    parse (Naming.uppercase {}) " x1e - y" = .ok ⟨[.name "X1E", .op .sub, .name "Y"]⟩ ∧
      parse {} "X1E-Y" = .ok ⟨[.name "X1E", .op .sub, .name "Y"]⟩ := by
  have h : parse (Naming.uppercase {}) " x1e - y" =
      .ok ⟨[.name "X1E", .op .sub, .name "Y"]⟩ := by cbv
  exact ⟨h, (canonical_text h).1⟩

end FormulaSheet.Formula
