import FormulaSheet.Proofs.Formula.Expression
import FormulaSheet.Proofs.Formula.Spelling

namespace FormulaSheet

variable {rules : Naming} {raw source : String} {raws rest : List String} {t : Token}
  {ts us : List Token} {e : Expression}

/-- Which parts may stand in a formula: parentheses, operators, numerals that are not too large,
and variables whose normal form is a variable that the rules accept. -/
inductive Naming.Admits (rules : Naming) : String → Prop
  | opening : rules.Admits "("
  | closing : rules.Admits ")"
  | operator (o : Operator) : rules.Admits (String.singleton o.symbol)
  | numeral {raw : String} {x : Float} : isNumeral raw → readNumber raw.toList = some x →
    x.isFinite → rules.Admits raw
  | name {raw : String} : isVariable raw → isVariable (rules.normalize raw) →
    rules.accepts (rules.normalize raw) → rules.Admits raw

theorem Naming.admits_iff : rules.Admits raw ↔ ∃ t, Token.ofText rules raw = .ok t := by
  simp only [Token.ofText_eq_ok_iff]
  constructor
  · intro h
    cases h with
    | opening => exact ⟨.opening, rfl⟩
    | closing => exact ⟨.closing, rfl⟩
    | operator o => exact ⟨.op o, rfl⟩
    | @numeral _ x hn hx hf => exact ⟨.number x, hn, hx, hf⟩
    | name hv hn ha =>
      exact ⟨.name (rules.normalize raw), hv, resolve_eq_ok_iff.2 ⟨rfl, hn, ha⟩⟩
  · rintro ⟨t, ht⟩
    cases t with
    | number x => exact .numeral ht.1 ht.2.1 ht.2.2
    | name v =>
      obtain ⟨hv, hr⟩ := ht
      obtain ⟨rfl, hn, ha⟩ := resolve_eq_ok_iff.1 hr
      exact .name hv hn ha
    | op o =>
      obtain rfl : raw = String.singleton o.symbol := ht
      exact .operator o
    | opening =>
      obtain rfl : raw = "(" := ht
      exact .opening
    | closing =>
      obtain rfl : raw = ")" := ht
      exact .closing

namespace Formula

/-- The symbols of the grammar of formulas. The operations are what follows the first operand. -/
inductive Phrase where
  | operand
  | operations
  | expression

/-- The grammar of formulas: an expression is an operand and any number of operations, each an
operator and an operand, and an operand is a number, a variable or an expression in parentheses. -/
inductive Derivable : Phrase → List String → Prop
  | numeral {raw : String} : isNumeral raw → Derivable .operand [raw]
  | name {raw : String} : isVariable raw → Derivable .operand [raw]
  | group {raws : List String} : Derivable .expression raws →
    Derivable .operand ("(" :: (raws ++ [")"]))
  | done : Derivable .operations []
  | operation (o : Operator) {raws rest : List String} : Derivable .operand raws →
    Derivable .operations rest →
    Derivable .operations (String.singleton o.symbol :: (raws ++ rest))
  | expression {raws rest : List String} : Derivable .operand raws → Derivable .operations rest →
    Derivable .expression (raws ++ rest)

theorem Derivable.operand (h : Derivable .operand raws) : Derivable .expression raws := by
  rw [← List.append_nil raws]
  exact .expression h .done

theorem Derivable.operations_append {l : Phrase} (h : Derivable l raws) (hl : l = .operations)
    (hr : Derivable .operations rest) : Derivable .operations (raws ++ rest) := by
  induction h with
  | done => exact hr
  | operation o h _ _ ih =>
    rw [List.cons_append, List.append_assoc]
    exact .operation o h (ih rfl)
  | _ => cases hl

/-- Two expressions with an operator between them are one, whichever operators bind closer. -/
theorem Derivable.operate (h : Derivable .expression raws) (o : Operator)
    (h' : Derivable .expression rest) :
    Derivable .expression (raws ++ String.singleton o.symbol :: rest) := by
  cases h with
  | expression hl hls =>
    cases h' with
    | expression hr hrs =>
      rw [List.append_assoc]
      exact .expression hl (hls.operations_append rfl (.operation o hr hrs))

section Spelling

open Expression

/-- The grammar leaves open which operators bind closer. -/
def Phrase.ofLevel : Level → Phrase
  | .operand => .operand
  | .product | .sum => .expression

theorem exists_of_spells_singleton (hs : List.Forall₂ (Token.Spells rules) raws [t]) :
    ∃ raw, raws = [raw] ∧ t.Spells rules raw := by
  obtain ⟨raw, _, hr, hn, rfl⟩ := List.forall₂_cons_right_iff.1 hs
  cases hn
  exact ⟨raw, rfl, hr⟩

theorem exists_of_spells_append (hs : List.Forall₂ (Token.Spells rules) raws (ts ++ us)) :
    ∃ raws' rest, raws = raws' ++ rest ∧ List.Forall₂ (Token.Spells rules) raws' ts ∧
      List.Forall₂ (Token.Spells rules) rest us :=
  ⟨_, _, (List.take_append_drop ts.length raws).symm, List.forall₂_take_append _ _ _ hs,
    List.forall₂_drop_append _ _ _ hs⟩

theorem exists_of_spells_operate {o : Operator}
    (hs : List.Forall₂ (Token.Spells rules) raws (ts ++ .op o :: us)) :
    ∃ raws' rest, raws = raws' ++ String.singleton o.symbol :: rest ∧
      List.Forall₂ (Token.Spells rules) raws' ts ∧ List.Forall₂ (Token.Spells rules) rest us := by
  obtain ⟨raws', tail, rfl, hts, htail⟩ := exists_of_spells_append hs
  obtain ⟨raw, rest, ho, hus, rfl⟩ := List.forall₂_cons_right_iff.1 htail
  obtain rfl : raw = String.singleton o.symbol := ho
  exact ⟨raws', rest, rfl, hts, hus⟩

theorem derivable_of_spelled {l : Level} (h : Spelled l ts e)
    (hs : List.Forall₂ (Token.Spells rules) raws ts) : Derivable (.ofLevel l) raws := by
  induction h generalizing raws with
  | number x =>
    obtain ⟨raw, rfl, hr⟩ := exists_of_spells_singleton hs
    exact .numeral hr.1
  | name v =>
    obtain ⟨raw, rfl, hr⟩ := exists_of_spells_singleton hs
    exact .name hr.1
  | group _ ih =>
    obtain ⟨opening, tail, ho, htail, rfl⟩ := List.forall₂_cons_right_iff.1 hs
    obtain ⟨inner, _, rfl, hinner, hlast⟩ := exists_of_spells_append htail
    obtain ⟨closing, rfl, hc⟩ := exists_of_spells_singleton hlast
    obtain rfl : opening = "(" := ho
    obtain rfl : closing = ")" := hc
    exact .group (ih hinner)
  | operand _ ih => exact (ih hs).operand
  | multiply _ _ _ ihl ihr =>
    obtain ⟨raws', rest, rfl, hl, hr⟩ := exists_of_spells_operate hs
    exact (ihl hl).operate _ (ihr hr).operand
  | product _ ih => exact ih hs
  | add _ _ _ ihl ihr =>
    obtain ⟨raws', rest, rfl, hl, hr⟩ := exists_of_spells_operate hs
    exact (ihl hl).operate _ (ihr hr)

end Spelling

section Reading

variable {p q : Beginning}

def Phrase.leads : Phrase → Bool
  | operand | expression => true
  | operations => false

namespace Beginning

theorem push_token {depth : Nat} (ht : Token.ofText rules raw = .ok t)
    (hs : t.startsOperand = p.awaitsOperand) (hd : p.enclose t = .ok depth) :
    ∃ q, p.push rules raw = .ok q ∧ q.awaitsOperand = !t.endsOperand ∧ q.depth = depth :=
  ⟨⟨t :: p.tokens, depth⟩, push_eq_ok_iff.2 ⟨t, ht, extend?_eq_some_iff.2 ⟨hs, rfl, hd⟩⟩, rfl, rfl⟩

theorem push_operand (h : isNumeral raw ∨ isVariable raw) (ha : rules.Admits raw)
    (hp : p.awaitsOperand = true) :
    ∃ q, p.push rules raw = .ok q ∧ q.awaitsOperand = false ∧ q.depth = p.depth := by
  obtain ⟨hopen, hclose, ho⟩ := Token.no_symbol h
  obtain ⟨t, ht⟩ := Naming.admits_iff.1 ha
  have hs : t.Spells rules raw := Token.ofText_eq_ok_iff.1 ht
  cases t with
  | number x => exact push_token ht hp.symm rfl
  | name v => exact push_token ht hp.symm rfl
  | op o => simp [Operator.ofSymbol?_eq_some_iff.2 hs] at ho
  | opening => exact absurd hs hopen
  | closing => exact absurd hs hclose

theorem push_operator (rules : Naming) (o : Operator) (hp : p.awaitsOperand = false) :
    ∃ q, p.push rules (String.singleton o.symbol) = .ok q ∧ q.awaitsOperand = true ∧
      q.depth = p.depth :=
  push_token (t := .op o) (Token.ofText_eq_ok_iff.2 rfl) hp.symm rfl

theorem push_opening (rules : Naming) (hp : p.awaitsOperand = true) :
    ∃ q, p.push rules "(" = .ok q ∧ q.awaitsOperand = true ∧ q.depth = p.depth + 1 :=
  push_token (t := .opening) (Token.ofText_eq_ok_iff.2 rfl) hp.symm rfl

theorem push_closing (rules : Naming) {depth : Nat} (hp : p.awaitsOperand = false)
    (hd : p.depth = depth + 1) :
    ∃ q, p.push rules ")" = .ok q ∧ q.awaitsOperand = false ∧ q.depth = depth := by
  refine push_token (t := .closing) (Token.ofText_eq_ok_iff.2 rfl) hp.symm ?_
  rw [enclose, if_neg (by omega), hd, Nat.add_sub_cancel]

theorem pushAll_cons (h : p.push rules raw = .ok q) :
    (raw :: raws).foldlM (push rules) p = raws.foldlM (push rules) q := by
  rw [List.foldlM_cons, h]
  rfl

theorem pushAll_append (h : raws.foldlM (push rules) p = .ok q) :
    (raws ++ rest).foldlM (push rules) p = rest.foldlM (push rules) q := by
  rw [List.foldlM_append, h]
  rfl

/-- A derivation is followed token by token. Within it no parenthesis is closed that was open
before, and at its end none is open that was not. -/
theorem pushAll_derivable {l : Phrase} (h : Derivable l raws) (ha : ∀ raw ∈ raws, rules.Admits raw)
    (hp : p.awaitsOperand = l.leads) :
    ∃ q, raws.foldlM (push rules) p = .ok q ∧ q.awaitsOperand = false ∧ q.depth = p.depth := by
  induction h generalizing p with
  | numeral h =>
    obtain ⟨q, hq, hend⟩ := push_operand (.inl h) (ha _ List.mem_cons_self) hp
    exact ⟨q, pushAll_cons hq, hend⟩
  | name h =>
    obtain ⟨q, hq, hend⟩ := push_operand (.inr h) (ha _ List.mem_cons_self) hp
    exact ⟨q, pushAll_cons hq, hend⟩
  | group _ ih =>
    obtain ⟨p₁, h₁, hp₁, hd₁⟩ := push_opening rules hp
    obtain ⟨p₂, h₂, hp₂, hd₂⟩ := ih (fun raw hr => ha raw (by simp [hr])) hp₁
    obtain ⟨q, hq, hend⟩ := push_closing rules hp₂ (hd₂.trans hd₁)
    refine ⟨q, ?_, hend⟩
    rw [pushAll_cons h₁, pushAll_append h₂]
    exact pushAll_cons hq
  | done => exact ⟨p, rfl, hp, rfl⟩
  | operation o _ _ ihl ihr =>
    obtain ⟨p₁, h₁, hp₁, hd₁⟩ := push_operator rules o hp
    obtain ⟨p₂, h₂, hp₂, hd₂⟩ := ihl (fun raw hr => ha raw (by simp [hr])) hp₁
    obtain ⟨q, hq, hend, hd⟩ := ihr (fun raw hr => ha raw (by simp [hr])) hp₂
    refine ⟨q, ?_, hend, by omega⟩
    rw [pushAll_cons h₁, pushAll_append h₂, hq]
  | expression _ _ ihl ihr =>
    obtain ⟨p₁, h₁, hp₁, hd₁⟩ := ihl (fun raw hr => ha raw (by simp [hr])) hp
    obtain ⟨q, hq, hend, hd⟩ := ihr (fun raw hr => ha raw (by simp [hr])) hp₁
    refine ⟨q, ?_, hend, hd.trans hd₁⟩
    rw [pushAll_append h₁, hq]

end Beginning

end Reading

/-- A text is accepted exactly if each of its parts may stand in a formula and the grammar derives
them together. -/
theorem exists_parse_iff_derivable : (∃ f, parse rules source = .ok f) ↔
    (∀ raw ∈ tokenize source, rules.Admits raw) ∧ Derivable .expression (tokenize source) := by
  constructor
  · rintro ⟨f, hf⟩
    obtain ⟨hts, hg⟩ := parse_eq_ok_iff.1 hf
    obtain ⟨e, he⟩ := hg.exists_spelled
    have ha := hts.imp fun raw t ht => (⟨Naming.admits_iff.2 ⟨t, ht⟩, ht⟩ : rules.Admits raw ∧ _)
    exact ⟨((List.forall₂_and_left _ _).1 ha).1,
      derivable_of_spelled he (hts.imp fun _ _ => Token.ofText_eq_ok_iff.1)⟩
  · rintro ⟨ha, hd⟩
    obtain ⟨q, hq, hend, hdepth⟩ := Beginning.pushAll_derivable (p := {}) hd ha rfl
    refine ⟨⟨q.tokens.reverse⟩, ?_⟩
    rw [parse, hq]
    exact Beginning.finish_eq_ok_iff.2 ⟨hend, hdepth, rfl⟩

end Formula

end FormulaSheet
