import FormulaSheet.Formula.Parse
import Mathlib.Data.List.Chain
import Mathlib.Data.List.Forall2

namespace FormulaSheet

variable {rules : Naming} {raw v w : String} {t : Token}

theorem Naming.resolve_eq_ok_iff :
    rules.resolve w = .ok v ↔ rules.normalize w = v ∧ isVariable v ∧ rules.accepts v := by
  unfold resolve
  grind

/-- Without rules a name that was accepted stays as it is. -/
theorem Naming.resolve_plain (h : rules.resolve w = .ok v) : resolve {} v = .ok v :=
  resolve_eq_ok_iff.2 ⟨rfl, (resolve_eq_ok_iff.1 h).2.1, rfl⟩

theorem Naming.resolve_self_iff (h : rules.resolve w = .ok v) :
    rules.resolve v = .ok v ↔ rules.normalize v = v := by
  obtain ⟨-, hv⟩ := resolve_eq_ok_iff.1 h
  rw [resolve_eq_ok_iff]
  exact and_iff_left hv

namespace Formula

variable {p q : Beginning} {ts : List Token} {raws : List String} {source : String} {f : Formula}

namespace Beginning

def awaitsOperand (p : Beginning) : Bool := p.tokens.head?.all fun t => !t.endsOperand

def extend? (p : Beginning) (t : Token) : Option Beginning :=
  if t.startsOperand = p.awaitsOperand then
    (p.enclose t).toOption.map fun depth => ⟨t :: p.tokens, depth⟩
  else none

theorem follow_eq_ok_iff : p.follow raw t = .ok () ↔ t.startsOperand = p.awaitsOperand := by
  unfold follow awaitsOperand
  cases p.tokens with
  | nil => cases t.startsOperand <;> simp
  | cons last _ => cases t.startsOperand <;> cases last.endsOperand <;> simp

/-- Where a token came from matters only for the token itself. -/
theorem push_eq_ok_iff :
    p.push rules raw = .ok q ↔ ∃ t, Token.ofText rules raw = .ok t ∧ p.extend? t = some q := by
  cases ht : Token.ofText rules raw with
  | error e => simp [push, ht, bind, Except.bind]
  | ok t =>
    have hf : p.follow raw t = .ok () ↔ _ := follow_eq_ok_iff
    unfold push extend?
    cases hfollow : p.follow raw t with
    | error e => simp_all [bind, Except.bind]
    | ok _ =>
      cases he : p.enclose t with
      | error e => simp_all [bind, Except.bind, Except.toOption]
      | ok depth => simp_all [bind, Except.bind, Except.toOption, pure, Except.pure]

theorem pushAll_eq_ok_iff : raws.foldlM (push rules) p = .ok q ↔
    ∃ ts, List.Forall₂ (fun raw t => Token.ofText rules raw = .ok t) raws ts ∧
      ts.foldlM extend? p = some q := by
  induction raws generalizing p with
  | nil => simp [pure, Except.pure]
  | cons raw raws ih =>
    simp only [List.foldlM_cons, bind, Except.bind, List.forall₂_cons_left_iff]
    constructor
    · intro h
      cases hp : p.push rules raw with
      | error e => simp [hp] at h
      | ok p' =>
        obtain ⟨t, ht, hx⟩ := push_eq_ok_iff.1 hp
        rw [hp] at h
        obtain ⟨ts, hts, hq⟩ := ih.1 h
        exact ⟨t :: ts, ⟨t, ts, ht, hts, rfl⟩, by simp [hx, hq]⟩
    · rintro ⟨_, ⟨t, ts, ht, hts, rfl⟩, hq⟩
      rw [List.foldlM_cons] at hq
      obtain ⟨p', hx, hq⟩ := Option.bind_eq_some_iff.1 hq
      rw [push_eq_ok_iff.2 ⟨t, ht, hx⟩]
      exact ih.2 ⟨ts, hts, hq⟩

theorem extend?_eq_some_iff : p.extend? t = some q ↔
    t.startsOperand = p.awaitsOperand ∧ q.tokens = t :: p.tokens ∧ p.enclose t = .ok q.depth := by
  unfold extend?
  obtain ⟨tokens, depth⟩ := q
  split
  · cases he : p.enclose t with
    | error e => simp [Except.toOption]
    | ok d => simp [Except.toOption, *, eq_comm]
  · simp [*]

theorem tokens_extendAll (h : ts.foldlM extend? p = some q) :
    q.tokens = ts.reverse ++ p.tokens := by
  induction ts generalizing p with
  | nil =>
    obtain rfl : p = q := by simpa using h
    rfl
  | cons t ts ih =>
    rw [List.foldlM_cons] at h
    obtain ⟨p', ht, hq⟩ := Option.bind_eq_some_iff.1 h
    rw [ih hq, (extend?_eq_some_iff.1 ht).2.1, List.reverse_cons, List.append_assoc]
    rfl

/-- An operand does not follow an operand, nor an operator an operator. -/
theorem isChain_extendAll (h : ts.foldlM extend? p = some q) :
    ts.IsChain (fun a b => b.startsOperand ≠ a.endsOperand) ∧
      ∀ t ∈ ts.head?, t.startsOperand = p.awaitsOperand := by
  induction ts generalizing p with
  | nil => simp
  | cons t ts ih =>
    rw [List.foldlM_cons] at h
    obtain ⟨p', ht, hq⟩ := Option.bind_eq_some_iff.1 h
    obtain ⟨hstart, htokens, -⟩ := extend?_eq_some_iff.1 ht
    obtain ⟨hc, hn⟩ := ih hq
    refine ⟨List.isChain_cons.2 ⟨fun b hb => ?_, hc⟩, by simpa using hstart⟩
    rw [hn b hb, awaitsOperand, htokens]
    simp

theorem finish_eq_ok_iff :
    p.finish = .ok f ↔ p.awaitsOperand = false ∧ p.depth = 0 ∧ f.tokens = p.tokens.reverse := by
  obtain ⟨tokens⟩ := f
  obtain ⟨_ | ⟨last, tokens'⟩, depth⟩ := p
  · simp [finish, awaitsOperand]
  · cases hl : last.endsOperand <;> by_cases hd : depth = 0 <;>
      simp [finish, awaitsOperand, hl, hd, eq_comm]

end Beginning

/-- Whether tokens make up a formula: operands and operators alternate and parentheses match. -/
def Grammatical (ts : List Token) : Prop :=
  ∃ p, ts.foldlM Beginning.extend? {} = some p ∧ p.awaitsOperand = false ∧ p.depth = 0

theorem Grammatical.isChain (h : Grammatical ts) :
    ts.IsChain fun a b => b.startsOperand ≠ a.endsOperand := by
  obtain ⟨p, hp, -⟩ := h
  exact (Beginning.isChain_extendAll hp).1

/-- A text spells a formula if its parts spell tokens that make up a formula. -/
theorem parse_eq_ok_iff : parse rules source = .ok f ↔
    List.Forall₂ (fun raw t => Token.ofText rules raw = .ok t) (tokenize source) f.tokens ∧
      Grammatical f.tokens := by
  have hparse : parse rules source = .ok f ↔
      ∃ p, (tokenize source).foldlM (Beginning.push rules) {} = .ok p ∧ p.finish = .ok f := by
    unfold parse
    cases (tokenize source).foldlM (Beginning.push rules) {} <;> simp [bind, Except.bind]
  simp only [hparse, Beginning.pushAll_eq_ok_iff, Beginning.finish_eq_ok_iff, Grammatical]
  constructor
  · rintro ⟨p, ⟨ts, hts, hp⟩, hend, hdepth, hf⟩
    rw [Beginning.tokens_extendAll hp, List.append_nil, List.reverse_reverse] at hf
    rw [hf]
    exact ⟨hts, p, hp, hend, hdepth⟩
  · rintro ⟨hts, p, hp, hend, hdepth⟩
    refine ⟨p, ⟨f.tokens, hts, hp⟩, hend, hdepth, ?_⟩
    rw [Beginning.tokens_extendAll hp, List.append_nil, List.reverse_reverse]

end Formula

end FormulaSheet
