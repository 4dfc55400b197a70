import Mathlib
import FormulaSheet.Proofs.Content

namespace FormulaSheet

variable {rules : Naming} {input : String} {c : Content}

namespace Content

/-- What was entered is entered again by the text of its content. For a number and for a text the
rules do not matter; a formula comes back if its names are normalized already, as they are under
idempotent rules and under none. -/
theorem parse_input (h : parse rules input = .ok c) :
    ((∀ f, c ≠ formula f) → ∀ rules', parse rules' c.input = .ok c) ∧
      (parse rules c.input = .ok c ↔ ∀ v ∈ c.reads, rules.normalize v = v) ∧
      (rules.Idempotent → parse rules c.input = .ok c) ∧
      parse {} c.input = .ok c := by
  have hs := parse_eq_ok_iff.1 h
  simp only [parse_eq_ok_iff, hs.input_iff]
  refine ⟨fun hf rules' v hv => ?_, ?_, fun hr => ?_, fun v hv => ?_⟩
  · cases c with
    | formula f => exact absurd rfl (hf f)
    | _ => cases hv
  · refine forall₂_congr fun v hv => ?_
    obtain ⟨w, hw⟩ := hs.exists_resolve hv
    exact Naming.resolve_self_iff hw
  · exact (hs.input_iff rules).1 (hs.input_self hr)
  · obtain ⟨w, hw⟩ := hs.exists_resolve hv
    exact Naming.resolve_plain hw

/-- Where every name gets a letter in front, a number with its sign is read again as it was, but a
formula is read again only without the rules. -/
theorem parse_input_prefixed :
    parse ⟨("p" ++ ·), fun _ => true⟩ (numberText (Binary.signed true 0)) =
        .ok (number (Binary.signed true 0)) ∧
      parse {} "=px" = .ok (formula ⟨[.name "px"]⟩) ∧
      parse ⟨("p" ++ ·), fun _ => true⟩ "=px" ≠ .ok (formula ⟨[.name "px"]⟩) := by
  have hx : parse ⟨("p" ++ ·), fun _ => true⟩ "-0" = .ok (number (Binary.signed true 0)) := by cbv
  have hf : parse ⟨("p" ++ ·), fun _ => true⟩ "=x" = .ok (formula ⟨[.name "px"]⟩) := by cbv
  obtain ⟨hnumber, -⟩ := parse_input hx
  obtain ⟨-, hiff, -, hplain⟩ := parse_input hf
  refine ⟨hnumber (fun f => by simp) _, hplain, fun h => ?_⟩
  have hmem : "px" ∈ (formula ⟨[.name "px"]⟩).reads :=
    Std.ExtTreeSet.mem_toList.2 (Formula.mem_names_iff.2 List.mem_cons_self)
  exact absurd (hiff.1 h "px" hmem) (by decide)

end Content

end FormulaSheet
