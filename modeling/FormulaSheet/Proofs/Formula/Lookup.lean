import FormulaSheet.Formula.Evaluate

namespace FormulaSheet.Formula

variable {m : Type → Type} [Monad m] {f : Formula} {v : String}

theorem mem_names_iff : v ∈ f.names ↔ Token.name v ∈ f.tokens := by
  simp only [names, Std.ExtTreeSet.mem_ofList, List.contains_iff_mem, List.mem_filterMap]
  constructor
  · rintro ⟨t, ht, hv⟩
    cases t with
    | name w =>
      obtain rfl : w = v := by simpa [Token.name?] using hv
      exact ht
    | _ => simp [Token.name?] at hv
  · exact fun h => ⟨.name v, h, rfl⟩

theorem Stacks.step_congr {lookup lookup' : String → ExceptT EvalError m Float} {t : Token}
    (h : ∀ v, t = .name v → lookup v = lookup' v) (s : Stacks) :
    s.step lookup t = s.step lookup' t := by
  cases t with
  | name v => rw [step, step, h v rfl]
  | _ => rfl

/-- The value depends only on what the variables of the formula are looked up as. -/
theorem evaluateM_congr {lookup lookup' : String → ExceptT EvalError m Float}
    (h : ∀ v ∈ f.names, lookup v = lookup' v) : f.evaluateM lookup = f.evaluateM lookup' := by
  have hf : ∀ (ts : List Token) (s : Stacks), ts ⊆ f.tokens →
      ts.foldlM (Stacks.step lookup) s = ts.foldlM (Stacks.step lookup') s := by
    intro ts
    induction ts with
    | nil => exact fun s _ => rfl
    | cons t ts ih =>
      intro s hs
      have ht : s.step lookup t = s.step lookup' t := by
        refine Stacks.step_congr (fun v hv => h v ?_) s
        exact mem_names_iff.2 (hv ▸ hs List.mem_cons_self)
      rw [List.foldlM_cons, List.foldlM_cons, ht]
      exact congrArg _ (funext fun s => ih s fun _ hm => hs (List.mem_cons_of_mem _ hm))
  rw [evaluateM, evaluateM, hf f.tokens {} fun _ hm => hm]

theorem evaluate_congr {lookup lookup' : String → Except EvalError Float}
    (h : ∀ v ∈ f.names, lookup v = lookup' v) : f.evaluate lookup = f.evaluate lookup' :=
  congrArg _ (evaluateM_congr fun v hv => by rw [h v hv])

end FormulaSheet.Formula
