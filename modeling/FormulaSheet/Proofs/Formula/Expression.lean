import FormulaSheet.Formula.Evaluate
import FormulaSheet.Proofs.Formula.Grammar
import Mathlib.Data.List.Basic

namespace FormulaSheet

/-- What the tokens of a formula mean together. Parentheses only show where operands belong. -/
inductive Expression where
  | number (x : Float)
  | name (v : String)
  | binary (o : Operator) (left right : Expression)

namespace Expression

def names : Expression → List String
  | number _ => []
  | name v => [v]
  | binary _ left right => left.names ++ right.names

/-- What an expression is part of: an operand stands between any operators, a product between
additive ones, and a sum within parentheses. -/
inductive Level where
  | operand
  | product
  | sum

/-- Whether tokens spell an expression. Multiplicative operators bind closer than additive ones,
and operators of one kind are applied from left to right. -/
inductive Spelled : Level → List Token → Expression → Prop
  | number (x : Float) : Spelled .operand [.number x] (.number x)
  | name (v : String) : Spelled .operand [.name v] (.name v)
  | group {ts : List Token} {e : Expression} : Spelled .sum ts e →
    Spelled .operand (.opening :: (ts ++ [.closing])) e
  | operand {ts : List Token} {e : Expression} : Spelled .operand ts e → Spelled .product ts e
  | multiply {ts us : List Token} {left right : Expression} {o : Operator} :
    o.isMultiplicative = true → Spelled .product ts left → Spelled .operand us right →
    Spelled .product (ts ++ .op o :: us) (.binary o left right)
  | product {ts : List Token} {e : Expression} : Spelled .product ts e → Spelled .sum ts e
  | add {ts us : List Token} {left right : Expression} {o : Operator} :
    o.isMultiplicative = false → Spelled .sum ts left → Spelled .product us right →
    Spelled .sum (ts ++ .op o :: us) (.binary o left right)

variable {l : Level} {ts us : List Token} {e left right : Expression} {o : Operator}

theorem Spelled.names_eq (h : Spelled l ts e) : ts.filterMap Token.name? = e.names := by
  induction h with
  | number x => rfl
  | name v => rfl
  | group h ih =>
    rw [List.filterMap_cons_none rfl, List.filterMap_append, ih]
    exact List.append_nil _
  | operand h ih => exact ih
  | multiply _ _ _ ihl ihr =>
    rw [List.filterMap_append, List.filterMap_cons_none rfl, ihl, ihr, names]
  | product h ih => exact ih
  | add _ _ _ ihl ihr =>
    rw [List.filterMap_append, List.filterMap_cons_none rfl, ihl, ihr, names]

/-- One operand more goes to the whole sum or only to its last product. -/
theorem Spelled.operate (h : Spelled .sum ts left) (o : Operator)
    (h' : Spelled .operand us right) : ∃ e, Spelled .sum (ts ++ .op o :: us) e := by
  cases ho : o.isMultiplicative with
  | false => exact ⟨_, .add ho h (.operand h')⟩
  | true =>
    cases h with
    | product hp => exact ⟨_, .product (.multiply ho hp h')⟩
    | add ha hs hp =>
      -- The operator binds closer than the last additive one.
      rw [List.append_assoc, List.cons_append]
      exact ⟨_, .add ha hs (.multiply ho hp h')⟩

end Expression

namespace Formula

open Expression

variable {p q : Beginning} {base ts us : List Token} {t : Token} {depth : Nat} {e : Expression}

inductive LeadsIn : List Token → Prop
  | nil : LeadsIn []
  | operator {ts : List Token} {e : Expression} (o : Operator) : Spelled .sum ts e →
    LeadsIn (ts ++ [.op o])

inductive Opened : Nat → List Token → Prop
  | start : Opened 0 []
  | opening {depth : Nat} {base ts : List Token} : Opened depth base → LeadsIn ts →
    Opened (depth + 1) (base ++ (ts ++ [.opening]))

theorem LeadsIn.operand (h : LeadsIn ts) (h' : Spelled .operand us e) :
    ∃ e, Spelled .sum (ts ++ us) e := by
  cases h with
  | nil => exact ⟨e, .product (.operand h')⟩
  | operator o h =>
    rw [List.append_assoc]
    exact h.operate o h'

/-- What holds of the beginning of a formula after each token: within the innermost open
parentheses stands a sum, or something that an operand may follow. -/
def Beginning.Sound (p : Beginning) : Prop :=
  ∃ base ts, Opened p.depth base ∧ p.tokens.reverse = base ++ ts ∧
    if p.awaitsOperand then LeadsIn ts else ∃ e, Spelled .sum ts e

theorem Beginning.sound_of_sum (hb : Opened q.depth base) (hs : ∃ e, Spelled .sum ts e)
    (hq : q.tokens.reverse = base ++ ts) (ha : q.awaitsOperand = false) : q.Sound := by
  refine ⟨base, ts, hb, hq, ?_⟩
  rwa [ha, if_neg Bool.false_ne_true]

theorem Beginning.sound_of_leadsIn (hb : Opened q.depth base) (hl : LeadsIn ts)
    (hq : q.tokens.reverse = base ++ ts) (ha : q.awaitsOperand = true) : q.Sound := by
  refine ⟨base, ts, hb, hq, ?_⟩
  rwa [ha, if_pos rfl]

theorem Beginning.Sound.extend (h : p.Sound) (he : p.extend? t = some q) : q.Sound := by
  obtain ⟨base, ts, hb, hp, hs⟩ := h
  obtain ⟨hstart, htokens, hdepth⟩ := extend?_eq_some_iff.1 he
  have hq : q.tokens.reverse = base ++ (ts ++ [t]) := by
    rw [htokens, List.reverse_cons, hp, List.append_assoc]
  have ha : q.awaitsOperand = !t.endsOperand := by
    rw [awaitsOperand, htokens]
    rfl
  rw [← hstart] at hs
  cases t with
  | number x =>
    rw [Except.ok.inj hdepth] at hb
    exact sound_of_sum hb (LeadsIn.operand hs (.number x)) hq ha
  | name v =>
    rw [Except.ok.inj hdepth] at hb
    exact sound_of_sum hb (LeadsIn.operand hs (.name v)) hq ha
  | op o =>
    obtain ⟨e, hs⟩ : ∃ e, Spelled .sum ts e := hs
    rw [Except.ok.inj hdepth] at hb
    exact sound_of_leadsIn hb (.operator o hs) hq ha
  | opening =>
    have hd : p.depth + 1 = q.depth := Except.ok.inj hdepth
    have hb : Opened q.depth (base ++ (ts ++ [.opening])) := hd ▸ hb.opening hs
    exact sound_of_leadsIn hb .nil (by rw [hq, List.append_nil]) ha
  | closing =>
    obtain ⟨e, hs⟩ : ∃ e, Spelled .sum ts e := hs
    -- The innermost parentheses are closed: what they enclose is an operand of the level around it.
    cases hd : p.depth with
    | zero => simp [enclose, hd] at hdepth
    | succ depth =>
      have hqd : depth = q.depth := by simpa [enclose, hd] using hdepth
      rw [hd] at hb
      cases hb with
      | opening hb hl =>
        rw [hqd] at hb
        refine sound_of_sum hb (hl.operand (.group hs)) ?_ ha
        simp only [hq, List.append_assoc, List.singleton_append]

theorem Beginning.sound_extendAll (h : p.Sound) (he : ts.foldlM extend? p = some q) : q.Sound := by
  induction ts generalizing p with
  | nil =>
    obtain rfl : p = q := by simpa using he
    exact h
  | cons t ts ih =>
    rw [List.foldlM_cons] at he
    obtain ⟨p', ht, hq⟩ := Option.bind_eq_some_iff.1 he
    exact ih (h.extend ht) hq

theorem Grammatical.exists_spelled (h : Grammatical ts) : ∃ e, Spelled .sum ts e := by
  obtain ⟨p, hp, ha, hd⟩ := h
  have hempty : Beginning.Sound {} := Beginning.sound_of_leadsIn .start .nil rfl rfl
  obtain ⟨base, us, hb, ht, hs⟩ := Beginning.sound_extendAll hempty hp
  rw [ha, if_neg Bool.false_ne_true] at hs
  rw [Beginning.tokens_extendAll hp, List.append_nil, List.reverse_reverse] at ht
  rw [hd] at hb
  cases hb
  rwa [ht]

end Formula

end FormulaSheet
