import FormulaSheet.Proofs.Formula.Expression

namespace FormulaSheet

variable {m : Type → Type} [Monad m] {lookup : String → ExceptT EvalError m Float}

/-- The value of an expression. Operands are evaluated from left to right, and the first failure
ends the evaluation. -/
def Expression.evaluateM (lookup : String → ExceptT EvalError m Float) :
    Expression → ExceptT EvalError m Float
  | number x => pure x
  | name v => lookup v
  | binary o left right => do
    let x ← left.evaluateM lookup
    let y ← right.evaluateM lookup
    liftExcept (o.apply x y)

namespace Formula

open Expression

variable {s : Stacks} {l : Level} {ts us : List Token} {e left right : Expression} {o : Operator}
  {f : Formula} {multiplicative : Bool}

theorem liftExcept_ok {α : Type} (a : α) :
    (liftExcept (Except.ok a : Except EvalError α) : ExceptT EvalError m α) = pure a :=
  rfl

theorem liftExcept_bind [LawfulMonad m] {α β : Type} (x : Except EvalError α)
    (k : α → Except EvalError β) :
    (liftExcept (x >>= k) : ExceptT EvalError m β) =
      liftExcept x >>= fun a => liftExcept (k a) := by
  cases x with
  | ok a => exact (pure_bind a fun a => liftExcept (k a)).symm
  | error e => exact (pure_bind (m := m) (Except.error e) (ExceptT.bindCont _)).symm

namespace Stacks

def Clear (multiplicative : Bool) (s : Stacks) : Prop :=
  ∀ o, s.pending.head? = some (.op o) → o.isMultiplicative ≠ multiplicative

theorem Clear.reduce (h : s.Clear multiplicative) : s.reduce multiplicative = .ok s := by
  unfold Stacks.reduce
  split
  · next o pending hp => rw [if_neg (h o (by rw [hp]; rfl))]
  · rfl

theorem reduce_op (ho : o.isMultiplicative = multiplicative) (x y : Float) (values : List Float)
    (pending : List Pending) : reduce multiplicative ⟨y :: x :: values, .op o :: pending⟩ =
      o.apply x y >>= fun z => .ok ⟨z :: values, pending⟩ := by
  unfold reduce
  dsimp only
  rw [if_pos ho]
  cases o.apply x y <;> rfl

theorem clear_op (h : o.isMultiplicative ≠ multiplicative) (values : List Float)
    (pending : List Pending) : Clear multiplicative ⟨values, .op o :: pending⟩ := by
  intro o' ho'
  obtain rfl : o = o' := by simpa using ho'
  exact h

end Stacks

/-- What the tokens of an expression do to the stacks, if the operators that wait on them are of
kinds that bind less than what the expression is part of. -/
def Runs (lookup : String → ExceptT EvalError m Float) (ts : List Token) (e : Expression) :
    Level → Prop
  | .operand => ∀ s : Stacks, ts.foldlM (Stacks.step lookup) s =
    e.evaluateM lookup >>= fun x => liftExcept (s.pushValue x)
  | .product => ∀ s : Stacks, s.Clear true → ts.foldlM (Stacks.step lookup) s =
    e.evaluateM lookup >>= fun x => pure ⟨x :: s.values, s.pending⟩
  | .sum => ∀ s : Stacks, s.Clear true → s.Clear false →
    (ts.foldlM (Stacks.step lookup) s >>= fun s' => liftExcept (s'.reduce false)) =
      e.evaluateM lookup >>= fun x => pure ⟨x :: s.values, s.pending⟩

theorem Runs.operand (h : Runs lookup ts e .operand) : Runs lookup ts e .product := by
  intro s hs
  rw [h s]
  refine bind_congr fun x => ?_
  have hx : Stacks.Clear true ⟨x :: s.values, s.pending⟩ := hs
  rw [Stacks.pushValue, hx.reduce]
  rfl

variable [LawfulMonad m]

theorem Runs.group (h : Runs lookup ts e .sum) :
    Runs lookup (.opening :: (ts ++ [.closing])) e .operand := by
  intro s
  have hclear : ∀ b, Stacks.Clear b ⟨s.values, .opening :: s.pending⟩ := by
    intro b o ho
    simp at ho
  have hclosing : ∀ s' : Stacks, [Token.closing].foldlM (Stacks.step lookup) s' =
      liftExcept s'.close := by
    intro s'
    rw [List.foldlM_cons, Stacks.step]
    exact bind_pure _
  rw [List.foldlM_cons, Stacks.step, pure_bind, List.foldlM_append]
  -- Closing ends the sum first, which is where the sum has its value, and then drops the
  -- parenthesis.
  simp only [hclosing, Stacks.close, liftExcept_bind]
  rw [← bind_assoc, h _ (hclear true) (hclear false), bind_assoc]
  refine bind_congr fun x => ?_
  rw [pure_bind]
  rfl

theorem Runs.multiply (ho : o.isMultiplicative = true) (hl : Runs lookup ts left .product)
    (hr : Runs lookup us right .operand) :
    Runs lookup (ts ++ .op o :: us) (.binary o left right) .product := by
  intro s hs
  rw [List.foldlM_append, hl s hs, Expression.evaluateM]
  simp only [bind_assoc, pure_bind]
  refine bind_congr fun x => ?_
  have hpush : Stacks.pushOperator o ⟨x :: s.values, s.pending⟩ =
      .ok ⟨x :: s.values, .op o :: s.pending⟩ := if_pos ho
  rw [List.foldlM_cons, Stacks.step, hpush, liftExcept_ok, pure_bind, hr]
  refine bind_congr fun y => ?_
  rw [Stacks.pushValue, Stacks.reduce_op ho, liftExcept_bind]
  rfl

theorem Runs.product (h : Runs lookup ts e .product) : Runs lookup ts e .sum := by
  intro s ht hf
  rw [h s ht, bind_assoc]
  refine bind_congr fun x => ?_
  have hx : Stacks.Clear false ⟨x :: s.values, s.pending⟩ := hf
  rw [pure_bind, hx.reduce]
  rfl

theorem Runs.add (ho : o.isMultiplicative = false) (hl : Runs lookup ts left .sum)
    (hr : Runs lookup us right .product) :
    Runs lookup (ts ++ .op o :: us) (.binary o left right) .sum := by
  intro s ht hf
  have hpush : ∀ s' : Stacks, s'.pushOperator o =
      s'.reduce false >>= fun s' => .ok ⟨s'.values, .op o :: s'.pending⟩ := by
    intro s'
    rw [Stacks.pushOperator, ho, if_neg Bool.false_ne_true]
    cases s'.reduce false <;> rfl
  rw [List.foldlM_append, Expression.evaluateM]
  -- The left sum is not over until the operator comes: pushing it applies the one that waits.
  simp only [List.foldlM_cons, Stacks.step, hpush, liftExcept_bind, bind_assoc]
  rw [← bind_assoc, hl s ht hf, bind_assoc]
  refine bind_congr fun x => ?_
  have hop : ∀ x, Stacks.Clear true ⟨x :: s.values, .op o :: s.pending⟩ :=
    fun x => Stacks.clear_op (ho ▸ Bool.false_ne_true) _ _
  rw [pure_bind, liftExcept_ok, pure_bind, hr _ (hop x)]
  simp only [bind_assoc, pure_bind]
  refine bind_congr fun y => ?_
  rw [Stacks.reduce_op ho, liftExcept_bind]
  rfl

theorem runs_of_spelled (h : Spelled l ts e) : Runs lookup ts e l := by
  induction h with
  | number x =>
    intro s
    rw [List.foldlM_cons, Expression.evaluateM, pure_bind]
    exact bind_pure _
  | name v =>
    intro s
    rw [List.foldlM_cons, Stacks.step, Expression.evaluateM]
    exact bind_pure _
  | group _ ih => exact ih.group
  | operand _ ih => exact ih.operand
  | multiply ho _ _ ihl ihr => exact ihl.multiply ho ihr
  | product _ ih => exact ih.product
  | add ho _ _ ihl ihr => exact ihl.add ho ihr

/-- The two stacks compute the value of the expression that the tokens spell. -/
theorem evaluateM_eq (h : Spelled .sum f.tokens e) : f.evaluateM lookup = e.evaluateM lookup := by
  have hclear : ∀ b, Stacks.Clear b {} := by
    intro b o ho
    simp at ho
  have hr : Runs lookup f.tokens e .sum := runs_of_spelled h
  rw [evaluateM]
  simp only [Stacks.finish, liftExcept_bind]
  rw [← bind_assoc, hr {} (hclear true) (hclear false), bind_assoc]
  simp only [pure_bind]
  exact bind_pure _

end Formula

section Pure

variable {lookup : String → Except EvalError Float} {e : Expression} {f : Formula} {x : Float}
  {v : String} {err : EvalError}

theorem Operator.apply_eq_error_iff {o : Operator} {x y : Float} :
    o.apply x y = .error err ↔ o = .div ∧ y == 0 ∧ err = .divisionByZero := by
  cases o with
  | div =>
    rw [apply]
    split <;> simp [*, eq_comm]
  | _ => simp [apply]

theorem run_liftExcept {α : Type} (y : Except EvalError α) :
    (liftExcept y : ExceptT EvalError Id α).run = y := by
  cases y <;> rfl

theorem run_bind {α β : Type} (y : ExceptT EvalError Id α) (k : α → ExceptT EvalError Id β) :
    (y >>= k).run = Except.bind y.run fun a => (k a).run := by
  rw [ExceptT.run_bind]
  cases y.run <;> rfl

namespace Expression

def evaluate (lookup : String → Except EvalError Float) (e : Expression) :
    Except EvalError Float :=
  (e.evaluateM fun v => (liftExcept (lookup v) : ExceptT EvalError Id Float)).run

theorem evaluate_name : (name v).evaluate lookup = lookup v := by
  rw [evaluate, evaluateM, run_liftExcept]

theorem evaluate_binary {o : Operator} {left right : Expression} :
    (binary o left right).evaluate lookup =
      left.evaluate lookup >>= fun x => right.evaluate lookup >>= fun y => o.apply x y := by
  rw [evaluate, evaluateM, run_bind]
  simp only [run_bind, run_liftExcept]
  rfl

theorem evaluate_binary_eq_ok_iff {o : Operator} {left right : Expression} :
    (binary o left right).evaluate lookup = .ok x ↔ ∃ y z, left.evaluate lookup = .ok y ∧
      right.evaluate lookup = .ok z ∧ o.apply y z = .ok x := by
  rw [evaluate_binary]
  cases left.evaluate lookup <;> cases right.evaluate lookup <;> simp [bind, Except.bind]

theorem evaluate_binary_eq_error_iff {o : Operator} {left right : Expression} :
    (binary o left right).evaluate lookup = .error err ↔ left.evaluate lookup = .error err ∨
      ∃ y, left.evaluate lookup = .ok y ∧ (right.evaluate lookup = .error err ∨
        ∃ z, right.evaluate lookup = .ok z ∧ o.apply y z = .error err) := by
  rw [evaluate_binary]
  cases left.evaluate lookup <;> cases right.evaluate lookup <;> simp [bind, Except.bind]

/-- Whether evaluation comes to a division by zero, everything before it having a value. -/
inductive DividesByZero (lookup : String → Except EvalError Float) : Expression → Prop
  | here {left right : Expression} {x y : Float} : left.evaluate lookup = .ok x →
    right.evaluate lookup = .ok y → y == 0 → DividesByZero lookup (.binary .div left right)
  | left {o : Operator} {left right : Expression} : DividesByZero lookup left →
    DividesByZero lookup (.binary o left right)
  | right {o : Operator} {left right : Expression} {x : Float} : left.evaluate lookup = .ok x →
    DividesByZero lookup right → DividesByZero lookup (.binary o left right)

/-- An expression that has a value has asked for all its variables. -/
theorem lookup_of_evaluate (h : e.evaluate lookup = .ok x) (hv : v ∈ e.names) :
    ∃ y, lookup v = .ok y := by
  induction e generalizing x with
  | number => simp [names] at hv
  | name w =>
    obtain rfl : v = w := by simpa [names] using hv
    exact ⟨x, evaluate_name.symm.trans h⟩
  | binary o left right ihl ihr =>
    obtain ⟨y, z, hl, hr, -⟩ := evaluate_binary_eq_ok_iff.1 h
    rcases List.mem_append.1 hv with hv | hv
    · exact ihl hl hv
    · exact ihr hr hv

/-- An expression fails with the answer for one of its variables, or since it divides by zero. -/
theorem evaluate_error_cases (h : e.evaluate lookup = .error err) :
    (∃ v ∈ e.names, lookup v = .error err) ∨
      err = .divisionByZero ∧ e.DividesByZero lookup := by
  induction e with
  | number => cases h
  | name w => exact .inl ⟨w, List.mem_singleton_self w, evaluate_name.symm.trans h⟩
  | binary o left right ihl ihr =>
    rcases evaluate_binary_eq_error_iff.1 h with hl | ⟨y, hl, hr | ⟨z, hr, ha⟩⟩
    · rcases ihl hl with ⟨v, hv, he⟩ | ⟨rfl, hd⟩
      · exact .inl ⟨v, List.mem_append_left _ hv, he⟩
      · exact .inr ⟨rfl, .left hd⟩
    · rcases ihr hr with ⟨v, hv, he⟩ | ⟨rfl, hd⟩
      · exact .inl ⟨v, List.mem_append_right _ hv, he⟩
      · exact .inr ⟨rfl, .right hl hd⟩
    · obtain ⟨rfl, hz, rfl⟩ := Operator.apply_eq_error_iff.1 ha
      exact .inr ⟨rfl, .here hl hr hz⟩

end Expression

namespace Formula

theorem evaluate_eq (h : Expression.Spelled .sum f.tokens e) :
    f.evaluate lookup = e.evaluate lookup :=
  congrArg ExceptT.run (evaluateM_eq h)

theorem mem_names_iff_of_spelled (h : Expression.Spelled .sum f.tokens e) :
    v ∈ f.names ↔ v ∈ e.names := by
  rw [names, Std.ExtTreeSet.mem_ofList, List.contains_iff_mem, h.names_eq]

end Formula

end Pure

end FormulaSheet
