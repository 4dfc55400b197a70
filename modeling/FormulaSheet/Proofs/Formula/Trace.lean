import Mathlib
import FormulaSheet.Proofs.Except
import FormulaSheet.Proofs.Formula.Evaluation
import FormulaSheet.Proofs.Formula.Unambiguous

namespace FormulaSheet

variable {rules : Naming} {source : String} {lookup : String → Except EvalError Float}
  {f : Formula} {e left right : Expression} {o : Operator} {err : EvalError} {x y : Float}
  {asked more : List String}

namespace Expression

/-- The value of an expression, and the variables that are looked up for it, in order. Operands are
evaluated from left to right, and nothing is looked up after the first failure. -/
def trace (lookup : String → Except EvalError Float) :
    Expression → Except EvalError Float × List String
  | number x => (.ok x, [])
  | name v => (lookup v, [v])
  | binary o left right =>
    match left.trace lookup with
    | (.error err, asked) => (.error err, asked)
    | (.ok x, asked) =>
      match right.trace lookup with
      | (.error err, more) => (.error err, asked ++ more)
      | (.ok y, more) => (o.apply x y, asked ++ more)

theorem trace_binary_of_error (hl : left.trace lookup = (.error err, asked)) :
    (binary o left right).trace lookup = (.error err, asked) := by
  rw [trace, hl]

theorem trace_binary_of_right_error (hl : left.trace lookup = (.ok x, asked))
    (hr : right.trace lookup = (.error err, more)) :
    (binary o left right).trace lookup = (.error err, asked ++ more) := by
  rw [trace, hl]
  dsimp only
  rw [hr]

theorem trace_binary_of_ok (hl : left.trace lookup = (.ok x, asked))
    (hr : right.trace lookup = (.ok y, more)) :
    (binary o left right).trace lookup = (o.apply x y, asked ++ more) := by
  rw [trace, hl]
  dsimp only
  rw [hr]

def asking (lookup : String → Except EvalError Float) (v : String) :
    ExceptT EvalError (StateM (List String)) Float := do
  modify (v :: ·)
  liftExcept (lookup v)

theorem run_asking (v : String) (asked : List String) :
    (asking lookup v).run.run asked = (lookup v, v :: asked) := by
  unfold asking
  cases lookup v <;> rfl

theorem run_evaluateM_asking (e : Expression) (before : List String) :
    (e.evaluateM (asking lookup)).run.run before =
      ((e.trace lookup).1, (e.trace lookup).2.reverse ++ before) := by
  induction e generalizing before with
  | number x => rfl
  | name v => exact run_asking v before
  | binary o left right ihl ihr =>
    rw [evaluateM]
    rcases hl : left.trace lookup with ⟨err | x, asked⟩
    · rw [trace_binary_of_error hl, run_bind_error (by rw [ihl, hl])]
    rw [run_bind_ok (by rw [ihl, hl])]
    rcases hr : right.trace lookup with ⟨err | y, more⟩
    · rw [trace_binary_of_right_error hl hr, run_bind_error (by rw [ihr, hr]),
        List.reverse_append, List.append_assoc]
    · rw [trace_binary_of_ok hl hr, run_bind_ok (by rw [ihr, hr]), List.reverse_append,
        List.append_assoc]
      cases o.apply x y <;> rfl

end Expression

namespace Formula

open Expression

theorem trace_eq_run : f.trace lookup = (((f.evaluateM (asking lookup)).run.run []).1,
    ((f.evaluateM (asking lookup)).run.run []).2.reverse) := by
  unfold trace asking
  simp only [bind_pure]
  rfl

theorem trace_eq (h : e.Spelled .sum f.tokens) : f.trace lookup = e.trace lookup := by
  rw [trace_eq_run, evaluateM_eq h, run_evaluateM_asking, List.append_nil, List.reverse_reverse]

end Formula

end FormulaSheet
