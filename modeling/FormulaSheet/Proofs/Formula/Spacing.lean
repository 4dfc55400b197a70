import FormulaSheet.Proofs.Formula.LongestMatch

namespace FormulaSheet

/-- A text is made of its tokens and blanks. -/
theorem Cut.spaced {cs : List Char} {ps : List Placed} (h : Cut cs ps) :
    Spaced (ps.map Placed.token) cs := by
  induction h with
  | done hb => exact .done hb
  | token hb _ _ _ ih => exact .token hb ih

theorem spaced_tokenize (source : String) : Spaced (tokenize source) source.toList := by
  obtain ⟨ps, hps, ht⟩ := exists_cut source
  rw [ht]
  exact hps.spaced

namespace Formula

variable {rules : Naming} {source : String} {f : Formula}

/-- A formula stays the same, whatever blanks are put or left between and around its tokens. -/
theorem parse_spaced (h : parse rules source = .ok f) :
    Spaced (tokenize source) source.toList ∧
      ∀ text : String, Spaced (tokenize source) text.toList →
        tokenize text = tokenize source ∧ parse rules text = .ok f := by
  obtain ⟨hs, hg⟩ := parse_eq_ok_iff_spells.1 h
  refine ⟨spaced_tokenize source, fun text ht => ?_⟩
  have hsame : tokenize text = tokenize source := tokenize_of_spaced hs hg.isChain ht
  exact ⟨hsame, parse_eq_ok_iff_spells.2 ⟨hsame.symm ▸ hs, hg⟩⟩

/-- No blank has to stand before the name, and any kind of blank may. -/
theorem parse_spaced_two :
    parse {} "( e)\u2003* e1" = .ok ⟨[.opening, .name "e", .closing, .op .mul, .name "e1"]⟩ ∧
      parse {} "(e)*\u00a0e1 " = .ok ⟨[.opening, .name "e", .closing, .op .mul, .name "e1"]⟩ := by
  have h : parse {} "( e)\u2003* e1" =
      .ok ⟨[.opening, .name "e", .closing, .op .mul, .name "e1"]⟩ := by cbv
  have ht : tokenize "( e)\u2003* e1" = ["(", "e", ")", "*", "e1"] := by cbv
  refine ⟨h, ((parse_spaced h).2 _ ?_).2⟩
  have hl : "(e)*\u00a0e1 ".toList = [] ++ ("(".toList ++ ([] ++ ("e".toList ++ ([] ++
      (")".toList ++ ([] ++ ("*".toList ++ (['\u00a0'] ++ ("e1".toList ++ [' ']))))))))) := by
    decide
  have hnone : ∀ c ∈ ([] : List Char), isBlank c := by simp
  have hspace : ∀ c ∈ [' '], isBlank c := List.forall_mem_singleton.2 rfl
  have hwide : ∀ c ∈ ['\u00a0'], isBlank c := List.forall_mem_singleton.2 rfl
  rw [ht, hl]
  exact .token hnone (.token hnone (.token hnone (.token hnone (.token hwide (.done hspace)))))

end Formula

end FormulaSheet
