import Mathlib.Logic.Basic

namespace FormulaSheet

section Binding

variable {ε σ α β : Type}

theorem bind_eq_ok_iff {x : Except ε α} {f : α → Except ε β} {b : β} :
    x >>= f = .ok b ↔ ∃ a, x = .ok a ∧ f a = .ok b := by
  cases x with
  | error e => simp [bind, Except.bind]
  | ok a => simp [bind, Except.bind]

/-- A fold fails at one of its steps, after which the rest does not matter. -/
theorem exists_of_foldlM_error {step : α → β → Except ε α} {a : α} {bs : List β} {e : ε}
    (h : bs.foldlM step a = .error e) : ∃ before b after a', bs = before ++ b :: after ∧
      before.foldlM step a = .ok a' ∧ step a' b = .error e := by
  induction bs generalizing a with
  | nil => cases h
  | cons b bs ih =>
    rw [List.foldlM_cons] at h
    cases hs : step a b with
    | error e' =>
      rw [hs] at h
      cases h
      exact ⟨[], b, bs, a, rfl, rfl, hs⟩
    | ok a' =>
      rw [hs] at h
      obtain ⟨before, b', after, a'', rfl, hok, he⟩ := ih h
      refine ⟨b :: before, b', after, a'', rfl, ?_, he⟩
      rw [List.foldlM_cons, hs]
      exact hok

variable {m : ExceptT ε (StateM σ) α} {f : α → ExceptT ε (StateM σ) β} {s s' : σ}

theorem run_bind_ok {a : α} (h : m.run.run s = (.ok a, s')) :
    (m >>= f).run.run s = (f a).run.run s' := by
  rw [ExceptT.run_bind, StateT.run_bind, h]
  rfl

theorem run_bind_error {e : ε} (h : m.run.run s = (.error e, s')) :
    (m >>= f).run.run s = (.error e, s') := by
  rw [ExceptT.run_bind, StateT.run_bind, h]
  rfl

end Binding

section Failures

variable {ε α β : Type} {f : ε → ε} {x y : Except ε α}

/-- Two outcomes that agree up to a change of errors are equal results or related errors. -/
theorem mapError_cases (h : x.mapError f = y.mapError f) :
    (∃ e e', x = .error e ∧ y = .error e' ∧ f e = f e') ∨ ∃ a, x = .ok a ∧ y = .ok a := by
  cases x <;> cases y
  · exact .inl ⟨_, _, rfl, rfl, Except.error.inj h⟩
  · cases h
  · cases h
  · exact .inr ⟨_, rfl, congrArg Except.ok (Except.ok.inj h).symm⟩

theorem mapError_bind_congr {k l : α → Except ε β} (h : x.mapError f = y.mapError f)
    (hk : ∀ a, (k a).mapError f = (l a).mapError f) :
    (x >>= k).mapError f = (y >>= l).mapError f := by
  rcases mapError_cases h with ⟨e, e', rfl, rfl, he⟩ | ⟨a, rfl, rfl⟩
  · exact congrArg Except.error he
  · exact hk a

theorem mapError_map_congr {g : α → β} (h : x.mapError f = y.mapError f) :
    (x.map g).mapError f = (y.map g).mapError f := by
  rcases mapError_cases h with ⟨e, e', rfl, rfl, he⟩ | ⟨a, rfl, rfl⟩
  · exact congrArg Except.error he
  · rfl

theorem mapError_foldlM_congr {g : β → β} {step : α → β → Except ε α}
    (h : ∀ a b, (step a (g b)).mapError f = (step a b).mapError f) (bs : List β) (a : α) :
    ((bs.map g).foldlM step a).mapError f = (bs.foldlM step a).mapError f := by
  induction bs generalizing a with
  | nil => rfl
  | cons b bs ih =>
    rw [List.map_cons, List.foldlM_cons, List.foldlM_cons]
    exact mapError_bind_congr (h a b) ih

end Failures

end FormulaSheet
