import Mathlib
import FormulaSheet.Proofs.Formula.Evaluation
import FormulaSheet.Proofs.Sheet.Stored

namespace FormulaSheet
open Relation

namespace EvalError

theorem reason_empty (v : String) : (empty v).reason = v ++ " is empty" := rfl

theorem reason_notNumber (v : String) : (notNumber v).reason = v ++ " is not a number" := rfl

theorem reason_inCell (c : String) (cause : EvalError) :
    (inCell c cause).reason = c ++ " has an error: " ++ cause.reason := rfl

end EvalError

namespace Sheet

variable {options : Options} {s : Sheet} {n t c : String} {f : Formula} {e : EvalError}
  {v : Except EvalError Float}

/-- Whether nothing can be read from a cell: it is empty, it holds text, or its formula has an
error. -/
inductive Failing (s : Sheet) (n : String) : Prop
  | empty : s.cells[n]? = none → Failing s n
  | text {t : String} : s.cells[n]? = some (.text t) → Failing s n
  | error {f : Formula} {e : EvalError} : s.cells[n]? = some (.formula f (.error e)) → Failing s n

/-- Whether an error arises in a formula itself, and not in a formula that it reads. -/
inductive RootCause (s : Sheet) (f : Formula) : String → Prop
  | divisionByZero {x : Expression} : x.Spelled .sum f.tokens → x.DividesByZero s.lookup →
    RootCause s f "division by zero"
  | empty {v : String} : v ∈ f.names → s.cells[v]? = none → RootCause s f (v ++ " is empty")
  | notNumber {v t : String} : v ∈ f.names → s.cells[v]? = some (.text t) →
    RootCause s f (v ++ " is not a number")

/-- Whether a reason tells the way from a cell along what the formulas read to the cell whose own
formula failed, and the cause of that. -/
def Traces (s : Sheet) (n reason : String) : Prop :=
  ∃ path last f root, (n :: path).IsChain s.content?.Reads ∧
    (n :: path).getLast? = some last ∧ s.cells[last]? = some (.formula f (.error root)) ∧
    s.RootCause f root.reason ∧
    reason = String.join (path.map (· ++ " has an error: ")) ++ root.reason

theorem lookup_error_cases (h : s.lookup n = .error e) :
    (s.cells[n]? = none ∧ e = .empty n) ∨ (∃ t, s.cells[n]? = some (.text t) ∧ e = .notNumber n) ∨
      ∃ f cause, s.cells[n]? = some (.formula f (.error cause)) ∧ e = .inCell n cause := by
  unfold lookup at h
  split at h
  · next hn => exact .inl ⟨hn, (Except.error.inj h).symm⟩
  · cases h
  · next t hn => exact .inr (.inl ⟨t, hn, (Except.error.inj h).symm⟩)
  · cases h
  · next f cause hn => exact .inr (.inr ⟨f, cause, hn, (Except.error.inj h).symm⟩)

theorem Failing.lookup_ne_ok (h : s.Failing n) (x : Float) : s.lookup n ≠ .ok x := by
  cases h with
  | _ h => simp [lookup, h]

/-- The tokens of a formula that is stored have a meaning, as they were accepted once. -/
theorem Entered.exists_spelled (h : s.Entered) (hn : s.cells[n]? = some (.formula f v)) :
    ∃ x, Expression.Spelled .sum f.tokens x := by
  obtain ⟨-, edit, he⟩ := h n (.formula f) (content?_eq_formula_iff.2 ⟨v, hn⟩)
  obtain ⟨⟨source, -, hf⟩, -⟩ := he.spells
  exact (Formula.parse_eq_ok_iff.1 hf).2.exists_spelled

/-- What reads something that fails has an error. -/
theorem Coherent.error_of_failing (h : s.Coherent) (he : s.Entered) (hc : s.Failing c)
    (hr : s.content?.ReadBy c t) : ∃ f e, s.cells[t]? = some (.formula f (.error e)) := by
  obtain ⟨f, hf, hm⟩ := hr
  obtain ⟨v, hn⟩ := content?_eq_formula_iff.1 hf
  obtain ⟨x, hx⟩ := he.exists_spelled hn
  cases v with
  | error e => exact ⟨f, e, hn⟩
  | ok y =>
    -- To come to a number the formula would have read one from `c`.
    have hv : x.evaluate s.lookup = .ok y := by
      rw [← Formula.evaluate_eq hx, ← h.settled t f _ hn]
    obtain ⟨z, hz⟩ := Expression.lookup_of_evaluate hv ((Formula.mem_names_iff_of_spelled hx).1 hm)
    exact absurd hz (hc.lookup_ne_ok z)

theorem Coherent.error_of_readBy (h : s.Coherent) (he : s.Entered) (hc : s.Failing c)
    (hr : TransGen s.content?.ReadBy c t) :
    ∃ f e, s.cells[t]? = some (.formula f (.error e)) := by
  induction hr with
  | single hr => exact h.error_of_failing he hc hr
  | tail _ hr ih =>
    obtain ⟨f, e, hn⟩ := ih
    exact h.error_of_failing he (.error hn) hr

/-- An error arises in the formula itself or comes from the error of a formula that it reads. -/
theorem Coherent.error_cases (h : s.Coherent) (he : s.Entered)
    (hn : s.cells[n]? = some (.formula f (.error e))) : s.RootCause f e.reason ∨
      ∃ c g cause, c ∈ f.names ∧ s.cells[c]? = some (.formula g (.error cause)) ∧
        e = .inCell c cause := by
  obtain ⟨x, hx⟩ := he.exists_spelled hn
  have hv : x.evaluate s.lookup = .error e := by
    rw [← Formula.evaluate_eq hx, ← h.settled n f _ hn]
  rcases Expression.evaluate_error_cases hv with ⟨c, hc, hl⟩ | ⟨rfl, hd⟩
  · have hc := (Formula.mem_names_iff_of_spelled hx).2 hc
    rcases lookup_error_cases hl with ⟨hcell, rfl⟩ | ⟨t, hcell, rfl⟩ | ⟨g, cause, hcell, rfl⟩
    · exact .inl (EvalError.reason_empty c ▸ .empty hc hcell)
    · exact .inl (EvalError.reason_notNumber c ▸ .notNumber hc hcell)
    · exact .inr ⟨c, g, cause, hc, hcell, rfl⟩
  · exact .inl (.divisionByZero hx hd)

theorem RootCause.traces (h : s.RootCause f e.reason)
    (hn : s.cells[n]? = some (.formula f (.error e))) : s.Traces n e.reason :=
  ⟨[], n, f, e, .singleton n, rfl, hn, h, rfl⟩

theorem Traces.inCell (h : s.Traces c e.reason) (hr : s.content?.Reads n c) :
    s.Traces n (EvalError.inCell c e).reason := by
  obtain ⟨path, last, f, root, hp, hl, hlast, hroot, hreason⟩ := h
  refine ⟨c :: path, last, f, root, .cons_cons hr hp, hl, hlast, hroot, ?_⟩
  rw [EvalError.reason_inCell, hreason, List.map_cons, String.join_cons]
  simp only [String.append_assoc]

theorem Coherent.traces (h : s.Coherent) (he : s.Entered)
    (hn : s.cells[n]? = some (.formula f (.error e))) : s.Traces n e.reason := by
  induction e generalizing n f with
  | inCell c cause ih =>
    rcases h.error_cases he hn with hr | ⟨_, g, _, hc, hg, heq⟩
    · exact hr.traces hn
    · cases heq
      exact (ih hg).inCell ⟨f, content?_eq_formula_iff.2 ⟨_, hn⟩, hc⟩
  | _ =>
    rcases h.error_cases he hn with hr | ⟨_, _, _, _, _, heq⟩
    · exact hr.traces hn
    · cases heq

/-- Errors are neither lost nor invented: what reads a failing cell has an error, in however many
steps, and each reason traces its error to a cause that is there. -/
theorem Reachable.errors_traced (h : Reachable options s) :
    (∀ c t : String, s.Failing c → TransGen s.content?.ReadBy c t →
      ∃ f e, s.cells[t]? = some (.formula f (.error e))) ∧
    (∀ (t a : String) (f : Formula) (v : Except EvalError Float),
      s.cells[t]? = some (.formula f v) → a ∈ f.names → isCellName a = false → ∃ e, v = .error e) ∧
    ∀ (t : String) (f : Formula) (e : EvalError), s.cells[t]? = some (.formula f (.error e)) →
      s.Traces t e.reason := by
  have hc := h.coherent
  have he := h.entered
  refine ⟨fun c t hf hr => hc.error_of_readBy he hf hr, fun t a f v ht ha hname => ?_,
    fun t f e ht => hc.traces he ht⟩
  -- Under a name that is no cell name nothing is ever stored.
  have ha' : s.cells[a]? = none := by
    by_contra hne
    obtain ⟨cell, hcell⟩ := Option.ne_none_iff_exists'.1 hne
    obtain ⟨-, edit, hedit⟩ := he a cell.content (by rw [content?, hcell]; rfl)
    rw [hedit.isCellName] at hname
    cases hname
  obtain ⟨g, e, hg⟩ := hc.error_of_failing he (.empty ha')
    ⟨f, content?_eq_formula_iff.2 ⟨v, ht⟩, ha⟩
  rw [ht] at hg
  cases hg
  exact ⟨e, rfl⟩

theorem errors_traced_three :
    (setAll {} [("A1", "=B1"), ("B1", "=C1"), ("C1", "x")]).Traces "A1"
      "B1 has an error: C1 is not a number" := by
  have hc : (setAll {} [("A1", "=B1"), ("B1", "=C1"), ("C1", "x")]).cells["A1"]? =
      some (.formula ⟨[.name "B1"]⟩ (.error (.inCell "B1" (.notNumber "C1")))) := by cbv
  have hr : Reachable {} (setAll {} [("A1", "=B1"), ("B1", "=C1"), ("C1", "x")]) :=
    Reachable.empty.setAll _
  exact hr.errors_traced.2.2 "A1" ⟨[.name "B1"]⟩ (.inCell "B1" (.notNumber "C1")) hc

end Sheet

end FormulaSheet
