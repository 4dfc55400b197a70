import FormulaSheet.Formula.Basic

namespace FormulaSheet

inductive EvalError where
  | divisionByZero
  | malformed
  | refused (reason : String)
  | empty (name : String)
  | notNumber (name : String)
  | inCell (name : String) (cause : EvalError)
deriving DecidableEq, Repr

namespace EvalError

def reason : EvalError → String
  | divisionByZero => "division by zero"
  | malformed => "malformed expression"
  | refused reason => reason
  | empty name => s!"{name} is empty"
  | notNumber name => s!"{name} is not a number"
  | inCell name cause => s!"{name} has an error: {cause.reason}"

def text (e : EvalError) : String := s!"#ERR: {e.reason}"

/-- What a lookup that knows some names only says of the others. -/
def undefined (name : String) : EvalError := refused s!"undefined variable {name}"

end EvalError

def Operator.apply (o : Operator) (left right : Float) : Except EvalError Float :=
  match o with
  | add => .ok (left + right)
  | sub => .ok (left - right)
  | mul => .ok (left * right)
  | div => if right == 0 then .error .divisionByZero else .ok (left / right)

namespace Formula

inductive Pending where
  | op (o : Operator)
  | opening
deriving DecidableEq

/-- Operands and the operators and parentheses that wait for more of them, both latest first. A
multiplicative operator waits for its right operand only, an additive one until the next additive
one, the parenthesis that closes its term or the end. -/
structure Stacks where
  values : List Float := []
  pending : List Pending := []

namespace Stacks

def reduce (multiplicative : Bool) (s : Stacks) : Except EvalError Stacks :=
  match s.pending with
  | .op o :: pending =>
    if o.isMultiplicative = multiplicative then
      match s.values with
      | right :: left :: values => (o.apply left right).map fun x => ⟨x :: values, pending⟩
      | _ => .error .malformed
    else .ok s
  | _ => .ok s

def pushValue (x : Float) (s : Stacks) : Except EvalError Stacks :=
  reduce true ⟨x :: s.values, s.pending⟩

def pushOperator (o : Operator) (s : Stacks) : Except EvalError Stacks :=
  if o.isMultiplicative then .ok ⟨s.values, .op o :: s.pending⟩
  else (s.reduce false).map fun s => ⟨s.values, .op o :: s.pending⟩

def close (s : Stacks) : Except EvalError Stacks := do
  let s ← s.reduce false
  match s.pending with
  | .opening :: pending => reduce true ⟨s.values, pending⟩
  | _ => .error .malformed

def finish (s : Stacks) : Except EvalError Float := do
  let s ← s.reduce false
  match s.values, s.pending with
  | [x], [] => .ok x
  | _, _ => .error .malformed

def step {m : Type → Type} [Monad m] (lookup : String → ExceptT EvalError m Float)
    (s : Stacks) : Token → ExceptT EvalError m Stacks
  | .number x => liftExcept (s.pushValue x)
  | .name v => do liftExcept (s.pushValue (← lookup v))
  | .op o => liftExcept (s.pushOperator o)
  | .opening => pure ⟨s.values, .opening :: s.pending⟩
  | .closing => liftExcept s.close

end Stacks

/-- The value of a formula, its variables being looked up from left to right. The first failure,
of a lookup or of an operator, ends the evaluation. -/
def evaluateM {m : Type → Type} [Monad m] (lookup : String → ExceptT EvalError m Float)
    (f : Formula) : ExceptT EvalError m Float := do
  let s ← f.tokens.foldlM (Stacks.step lookup) {}
  liftExcept s.finish

def evaluate (lookup : String → Except EvalError Float) (f : Formula) : Except EvalError Float :=
  (f.evaluateM fun v => (liftExcept (lookup v) : ExceptT EvalError Id Float)).run

def trace (lookup : String → Except EvalError Float) (f : Formula) :
    Except EvalError Float × List String :=
  let asked : StateM (List String) (Except EvalError Float) :=
    (f.evaluateM fun v => do
      modify (v :: ·)
      liftExcept (lookup v)).run
  let (value, names) := asked.run []
  (value, names.reverse)

end Formula

end FormulaSheet
