import FormulaSheet.Proofs.Formula.Expression
import Mathlib.Algebra.Order.Ring.Int

namespace FormulaSheet.Expression

/-- Two ways to part a list at one of its members: at the same place, or one before the other. -/
theorem append_cons_cases {α : Type} {xs ys xs' ys' : List α} {a b : α}
    (h : xs ++ a :: ys = xs' ++ b :: ys') : (xs = xs' ∧ a = b ∧ ys = ys') ∨
      (∃ zs, xs' = xs ++ a :: zs ∧ ys = zs ++ b :: ys') ∨
      ∃ zs, xs = xs' ++ b :: zs ∧ ys' = zs ++ a :: ys := by
  rcases List.append_eq_append_iff.1 h with ⟨zs, rfl, h⟩ | ⟨zs, rfl, h⟩
  · cases zs with
    | nil => simp_all
    | cons z zs => simp_all
  · cases zs with
    | nil => simp_all
    | cons z zs => simp_all

/-- How many more parentheses are opened than closed. -/
def nesting : List Token → ℤ
  | [] => 0
  | .opening :: ts => nesting ts + 1
  | .closing :: ts => nesting ts - 1
  | _ :: ts => nesting ts

theorem nesting_append (ts us : List Token) : nesting (ts ++ us) = nesting ts + nesting us := by
  induction ts with
  | nil => simp [nesting]
  | cons t ts ih => cases t <;> simp only [List.cons_append, nesting, ih] <;> omega

variable {l : Level} {ts us vs ts' us' : List Token} {e e' : Expression} {o o' : Operator}

theorem nesting_operate (ts us : List Token) (o : Operator) :
    nesting (ts ++ .op o :: us) = nesting ts + nesting us :=
  nesting_append ts (.op o :: us)

theorem Spelled.nesting_eq (h : Spelled l ts e) : nesting ts = 0 := by
  induction h with
  | number x => rfl
  | name v => rfl
  | group _ ih => simp [nesting, nesting_append, ih]
  | operand _ ih => exact ih
  | multiply _ _ _ ihl ihr => rw [nesting_operate, ihl, ihr, add_zero]
  | product _ ih => exact ih
  | add _ _ _ ihl ihr => rw [nesting_operate, ihl, ihr, add_zero]

theorem nesting_of_prefix_singleton {t : Token} (ht : nesting [t] = 0) (h : us <+: [t]) :
    nesting us = 0 := by
  rcases List.prefix_cons_iff.1 h with rfl | ⟨rest, rfl, hrest⟩
  · rfl
  · rw [List.prefix_nil.1 hrest, ht]

theorem nesting_nonneg_operate (hl : ∀ ws, ws <+: ts → 0 ≤ nesting ws)
    (hr : ∀ ws, ws <+: us → 0 ≤ nesting ws) (hts : nesting ts = 0) (h : vs <+: ts ++ .op o :: us) :
    0 ≤ nesting vs := by
  obtain ⟨ws, he⟩ := h
  rcases List.append_eq_append_iff.1 he with ⟨as, rfl, -⟩ | ⟨as, rfl, hrest⟩
  · exact hl vs (List.prefix_append vs as)
  · rw [nesting_append, hts, zero_add]
    cases as with
    | nil => exact le_rfl
    | cons a as =>
      obtain ⟨rfl, rfl⟩ := List.cons_eq_cons.1 hrest
      exact hr as (List.prefix_append as ws)

/-- Nowhere are more parentheses closed than opened before. -/
theorem Spelled.nesting_nonneg (h : Spelled l ts e) (hus : us <+: ts) : 0 ≤ nesting us := by
  induction h generalizing us with
  | number x => exact (nesting_of_prefix_singleton rfl hus).ge
  | name v => exact (nesting_of_prefix_singleton rfl hus).ge
  | @group ts e h ih =>
    rcases List.prefix_cons_iff.1 hus with rfl | ⟨rest, rfl, hrest⟩
    · exact le_rfl
    -- Before its end a group has its own parenthesis open.
    · rcases List.prefix_concat_iff.1 hrest with rfl | hinner
      · simp [nesting, nesting_append, h.nesting_eq]
      · have := ih hinner
        rw [nesting]
        omega
  | operand _ ih => exact ih hus
  | multiply _ hl _ ihl ihr =>
    exact nesting_nonneg_operate (fun _ => ihl) (fun _ => ihr) hl.nesting_eq hus
  | product _ ih => exact ih hus
  | add _ hl _ ihl ihr =>
    exact nesting_nonneg_operate (fun _ => ihl) (fun _ => ihr) hl.nesting_eq hus

def Outside (o : Operator) (ts : List Token) : Prop :=
  ∃ us vs, ts = us ++ .op o :: vs ∧ nesting us = 0

theorem Outside.cases (h : Outside o (ts ++ .op o' :: us)) (hts : nesting ts = 0) :
    Outside o ts ∨ o' = o ∨ Outside o us := by
  obtain ⟨as, bs, h, has⟩ := h
  rcases append_cons_cases h with ⟨-, ho, -⟩ | ⟨cs, rfl, rfl⟩ | ⟨cs, rfl, -⟩
  · exact .inr (.inl (Token.op.inj ho))
  · rw [nesting_operate, hts, zero_add] at has
    exact .inr (.inr ⟨cs, bs, rfl, has⟩)
  · exact .inl ⟨as, cs, rfl, has⟩

def Level.Joins : Level → Operator → Prop
  | .operand, _ => False
  | .product, o => o.isMultiplicative = true
  | .sum, _ => True

theorem Spelled.joins (h : Spelled l ts e) (ho : Outside o ts) : l.Joins o := by
  induction h with
  | number x =>
    obtain ⟨us, vs, h, -⟩ := ho
    cases us <;> simp at h
  | name v =>
    obtain ⟨us, vs, h, -⟩ := ho
    cases us <;> simp at h
  | @group ts e h _ =>
    obtain ⟨us, vs, he, hus⟩ := ho
    cases us with
    | nil => simp at he
    | cons u us =>
      obtain ⟨rfl, hts⟩ := List.cons_eq_cons.1 he
      rw [nesting] at hus
      -- The operator stands before the closing parenthesis, where the other one is open.
      have hpre : us <+: ts := by
        rcases List.prefix_concat_iff.1 ⟨_, hts.symm⟩ with hs | hs
        · simp [hs] at hts
        · exact hs
      have := h.nesting_nonneg hpre
      omega
  | operand _ ih => exact (ih ho).elim
  | multiply ho' hl _ ihl ihr =>
    rcases ho.cases hl.nesting_eq with ho | rfl | ho
    · exact ihl ho
    · exact ho'
    · exact (ihr ho).elim
  | product => trivial
  | add => trivial

/-- Two ways to part tokens at an operator are the same if neither right part has the operator of
the other outside of its parentheses. -/
theorem operate_inj (h : ts ++ .op o :: us = ts' ++ .op o' :: us') (hts : nesting ts = 0)
    (hts' : nesting ts' = 0) (hus : ¬Outside o' us) (hus' : ¬Outside o us') :
    ts = ts' ∧ o = o' ∧ us = us' := by
  rcases append_cons_cases h with ⟨rfl, ho, rfl⟩ | ⟨ws, rfl, rfl⟩ | ⟨ws, rfl, rfl⟩
  · exact ⟨rfl, Token.op.inj ho, rfl⟩
  · rw [nesting_operate, hts, zero_add] at hts'
    exact absurd ⟨ws, us', rfl, hts'⟩ hus
  · rw [nesting_operate, hts', zero_add] at hts
    exact absurd ⟨ws, us, rfl, hts⟩ hus'

theorem outside_operate (hts : nesting ts = 0) : Outside o (ts ++ .op o :: us) :=
  ⟨ts, us, rfl, hts⟩

/-- Tokens spell at most one expression. -/
theorem Spelled.unique (h : Spelled l ts e) (h' : Spelled l ts e') : e = e' := by
  induction h generalizing e' with
  | number x =>
    cases h'
    rfl
  | name v =>
    cases h'
    rfl
  | @group ts e _ ih =>
    generalize hg : Token.opening :: (ts ++ [.closing]) = us at h'
    cases h' with
    | group h' =>
      obtain rfl : ts = _ := by simpa using hg
      exact ih h'
    | _ => simp at hg
  | @operand ts e h ih =>
    cases h' with
    | operand h' => exact ih h'
    | multiply _ hl _ => exact (h.joins (outside_operate hl.nesting_eq)).elim
  | @multiply ts us left right o ho hl hr ihl ihr =>
    generalize hp : ts ++ .op o :: us = vs at h'
    cases h' with
    | operand h' => exact (h'.joins (hp ▸ outside_operate hl.nesting_eq)).elim
    | multiply _ hl' hr' =>
      obtain ⟨rfl, rfl, rfl⟩ :=
        operate_inj hp hl.nesting_eq hl'.nesting_eq (fun h => hr.joins h) fun h => hr'.joins h
      rw [ihl hl', ihr hr']
  | @product ts e h ih =>
    cases h' with
    | product h' => exact ih h'
    | add ho hl _ =>
      exact absurd (ho.symm.trans (h.joins (outside_operate hl.nesting_eq))) Bool.false_ne_true
  | @add ts us left right o ho hl hr ihl ihr =>
    have hne : ∀ {us e} {o : Operator}, Spelled .product us e → o.isMultiplicative = false →
        ¬Outside o us := fun h ho hout => Bool.false_ne_true (ho.symm.trans (h.joins hout))
    generalize hs : ts ++ .op o :: us = vs at h'
    cases h' with
    | product h' => exact absurd (hs ▸ outside_operate hl.nesting_eq) (hne h' ho)
    | add ho' hl' hr' =>
      obtain ⟨rfl, rfl, rfl⟩ :=
        operate_inj hs hl.nesting_eq hl'.nesting_eq (hne hr ho') (hne hr' ho)
      rw [ihl hl', ihr hr']

end FormulaSheet.Expression
