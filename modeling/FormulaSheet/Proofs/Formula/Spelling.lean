import Mathlib
import FormulaSheet.Proofs.Formula.Blanks
import FormulaSheet.Proofs.Formula.Grammar
import FormulaSheet.Proofs.Formula.Lookup
import FormulaSheet.Proofs.Number.RoundTrip

namespace FormulaSheet

section Reading

variable {rules : Naming} {raw v : String} {t : Token}

theorem Operator.ofSymbol?_eq_some_iff {o : Operator} :
    ofSymbol? raw = some o ↔ raw = String.singleton o.symbol := by
  constructor
  · intro h
    unfold ofSymbol? at h
    split at h <;> cases h <;> rfl
  · rintro rfl
    cases o <;> rfl

namespace Token

/-- Whether a text can spell the token: numerals are finite and have no sign. -/
def Legible : Token → Prop
  | number x => x.isFinite ∧ x.toBits.toNat < Binary.signBit
  | name v => isVariable v
  | op _ | opening | closing => True

def Spells (rules : Naming) (raw : String) : Token → Prop
  | number x => isNumeral raw ∧ readNumber raw.toList = some x ∧ x.isFinite
  | name v => isVariable raw ∧ rules.resolve raw = .ok v
  | t => raw = t.text

/-- A symbol is neither a numeral nor a variable. -/
theorem no_symbol (h : isNumeral raw ∨ isVariable raw) :
    raw ≠ "(" ∧ raw ≠ ")" ∧ Operator.ofSymbol? raw = none := by
  refine ⟨?_, ?_, ?_⟩
  · rintro rfl
    exact absurd h (by decide)
  · rintro rfl
    exact absurd h (by decide)
  · cases ho : Operator.ofSymbol? raw with
    | none => rfl
    | some o =>
      obtain rfl := Operator.ofSymbol?_eq_some_iff.1 ho
      cases o <;> exact absurd h (by decide)

theorem isNumeral_eq_false (h : isVariable raw) : isNumeral raw = false := by
  by_contra hn
  obtain ⟨c, cs, hc, hd⟩ := exists_of_isNumeral (by simpa using hn)
  obtain ⟨d, ds, hv, hs, -⟩ := exists_of_isVariable h
  obtain rfl := (List.cons.inj (hc.symm.trans hv)).1
  rcases hd with hd | rfl
  · simp [isNameStart_eq_false_of_isDigit hd] at hs
  · exact absurd hs (by decide)

theorem ofText_of_isNumeral {x : Float} (h : isNumeral raw) (hx : readNumber raw.toList = some x) :
    ofText rules raw = if x.isFinite then .ok (number x) else .error (.numberOutOfRange raw) := by
  obtain ⟨ho, hc, hs⟩ := no_symbol (.inl h)
  rw [ofText, if_neg ho, if_neg hc, hs]
  cases hf : x.isFinite <;> simp [h, hx, hf, Option.filter]

theorem ofText_eq_ok_iff : ofText rules raw = .ok t ↔ t.Spells rules raw := by
  constructor
  · intro h
    unfold ofText at h
    split at h
    · cases h
      assumption
    split at h
    · cases h
      assumption
    split at h
    · next o ho =>
      cases h
      exact Operator.ofSymbol?_eq_some_iff.1 ho
    split at h
    · next hn =>
      split at h
      · next x hx =>
        cases h
        exact ⟨hn, Option.filter_eq_some_iff.1 hx⟩
      · cases h
    split at h
    · next hv =>
      cases hr : rules.resolve raw with
      | error e => simp [hr, Except.map] at h
      | ok v =>
        rw [hr] at h
        cases h
        exact ⟨hv, hr⟩
    · cases h
  · intro h
    cases t with
    | number x =>
      obtain ⟨hn, hx, hf⟩ := h
      rw [ofText_of_isNumeral hn hx, if_pos hf]
    | name v =>
      obtain ⟨hv, hr⟩ := h
      obtain ⟨ho, hc, hs⟩ := no_symbol (.inr hv)
      rw [ofText, if_neg ho, if_neg hc, hs]
      simp [isNumeral_eq_false hv, hv, hr, Except.map]
    | op o =>
      obtain rfl : raw = String.singleton o.symbol := h
      cases o <;> rfl
    | opening =>
      obtain rfl : raw = "(" := h
      rfl
    | closing =>
      obtain rfl : raw = ")" := h
      rfl

theorem Spells.legible (h : t.Spells rules raw) : t.Legible := by
  cases t with
  | number x =>
    obtain ⟨hn, hx, hf⟩ := h
    rw [readNumber_of_isNumeral hn] at hx
    obtain ⟨d, -, rfl⟩ := Option.map_eq_some_iff.1 hx
    have hb := Binary.nearest_le d
    refine ⟨hf, ?_⟩
    rw [Binary.toNat_toBits_signed false hb, if_neg Bool.false_ne_true]
    simp only [Binary.infinityBits, Binary.signBit, Binary.binade] at *
    omega
  | name v => exact (Naming.resolve_eq_ok_iff.1 h.2).2.1
  | _ => trivial

/-- The text of a token spells the token, if its name is not spelled another way. -/
theorem Legible.spells_text (h : t.Legible) (hn : ∀ v, t = name v → rules.resolve v = .ok v) :
    t.Spells rules t.text := by
  cases t with
  | number x =>
    obtain ⟨negative, p, ht, -, hn⟩ := exists_positional_numberText h.1
    obtain rfl := hn.2 h.2
    have hp : (number x).text.toList = p.text :=
      (congrArg String.toList ht).trans String.toList_ofList
    exact ⟨isNumeral_iff.2 (hp ▸ p.matches_numeral), readNumber_numberText h.1, h.1⟩
  | name v => exact ⟨h, hn v rfl⟩
  | _ => rfl

theorem Spells.recognised (h : t.Spells rules raw) : Recognised raw := by
  cases t with
  | number x => exact ⟨.numeral, h.1⟩
  | name v => exact ⟨.name, h.1⟩
  | op o => exact ⟨.operator, o, h⟩
  | opening => exact ⟨.parenthesis, .inl h⟩
  | closing => exact ⟨.parenthesis, .inr h⟩

/-- A token that does not both begin and end an operand is a symbol. -/
theorem Spells.symbolic (h : t.Spells rules raw)
    (ht : t.startsOperand = false ∨ t.endsOperand = false) : Symbolic raw := by
  cases t with
  | number x => simp [startsOperand, endsOperand] at ht
  | name v => simp [startsOperand, endsOperand] at ht
  | op o => exact ⟨o.symbol, h, by cases o <;> rfl⟩
  | opening => exact ⟨'(', h, rfl⟩
  | closing => exact ⟨')', h, rfl⟩

end Token

/-- Of two tokens of a formula that stand side by side one is a symbol. -/
theorem isChain_symbolic {ts : List Token} {raws : List String}
    (hs : List.Forall₂ (Token.Spells rules) raws ts)
    (hc : ts.IsChain fun a b => b.startsOperand ≠ a.endsOperand) :
    raws.IsChain fun raw next => Symbolic raw ∨ Symbolic next := by
  induction hs with
  | nil => exact .nil
  | cons h hs ih =>
    obtain ⟨hnext, hc⟩ := List.isChain_cons.1 hc
    refine List.isChain_cons.2 ⟨fun next hn => ?_, ih hc⟩
    cases hs with
    | nil => cases hn
    | @cons raw' t' raws ts h' hs =>
      obtain rfl : raw' = next := by simpa using hn
      have hne := hnext t' rfl
      cases he : Token.endsOperand _ with
      | false => exact .inl (h.symbolic (.inr he))
      | true => exact .inr (h'.symbolic (.inl (by simpa [he] using hne)))

namespace Formula

variable {source : String} {f : Formula}

/-- No blanks are needed between the tokens of a formula, and any do no harm. -/
theorem tokenize_of_spaced {ts : List Token} {raws : List String} {text : String}
    (hs : List.Forall₂ (Token.Spells rules) raws ts)
    (hc : ts.IsChain fun a b => b.startsOperand ≠ a.endsOperand) (h : Spaced raws text.toList) :
    tokenize text = raws := by
  refine tokenize_spaced h ?_ (isChain_symbolic hs hc)
  have hr := hs.imp fun raw t hst =>
    (⟨hst.recognised, hst⟩ : Recognised raw ∧ t.Spells rules raw)
  exact ((List.forall₂_and_left _ _).1 hr).1

theorem parse_eq_ok_iff_spells : parse rules source = .ok f ↔
    List.Forall₂ (Token.Spells rules) (tokenize source) f.tokens ∧ Grammatical f.tokens := by
  simp only [parse_eq_ok_iff, Token.ofText_eq_ok_iff]

theorem exists_spells (h : parse rules source = .ok f) (ht : t ∈ f.tokens) :
    ∃ raw, t.Spells rules raw := by
  have hts := (parse_eq_ok_iff_spells.1 h).1.flip.imp fun t raw hs =>
    (⟨⟨raw, hs⟩, hs⟩ : (∃ raw, t.Spells rules raw) ∧ _)
  exact ((List.forall₂_and_left _ _).1 hts).1 t ht

/-- Every variable was once normalized and accepted. -/
theorem exists_resolve (h : parse rules source = .ok f) (hv : v ∈ f.names) :
    ∃ w, rules.resolve w = .ok v := by
  obtain ⟨w, hw⟩ := exists_spells h (mem_names_iff.1 hv)
  exact ⟨w, hw.2⟩

theorem resolve_plain (h : parse rules source = .ok f) (hv : v ∈ f.names) :
    ({} : Naming).resolve v = .ok v := by
  obtain ⟨w, hw⟩ := exists_resolve h hv
  exact Naming.resolve_plain hw

theorem forall₂_spells_text (h : parse rules source = .ok f) {rules' : Naming}
    (hn : ∀ v ∈ f.names, rules'.resolve v = .ok v) :
    List.Forall₂ (Token.Spells rules') (f.tokens.map Token.text) f.tokens := by
  rw [List.forall₂_map_left_iff, List.forall₂_same]
  intro t ht
  obtain ⟨raw, hr⟩ := exists_spells h ht
  exact hr.legible.spells_text fun v hv => hn v (mem_names_iff.2 (hv ▸ ht))

/-- Without blanks the tokens of a formula stay apart. -/
theorem tokenize_text (h : parse rules source = .ok f) :
    tokenize f.text = f.tokens.map Token.text := by
  have hg : Grammatical f.tokens := (parse_eq_ok_iff_spells.1 h).2
  exact tokenize_of_spaced (forall₂_spells_text h fun _ => resolve_plain h) hg.isChain
    (spaced_join _)

/-- The text of a formula spells the formula, also under other rules if they leave its names as
they are. -/
theorem parse_text_iff (h : parse rules source = .ok f) {rules' : Naming} :
    parse rules' f.text = .ok f ↔ ∀ v ∈ f.names, rules'.resolve v = .ok v := by
  rw [parse_eq_ok_iff_spells, tokenize_text h]
  constructor
  · rintro ⟨hs, -⟩ v hv
    rw [List.forall₂_map_left_iff, List.forall₂_same] at hs
    exact (hs (.name v) (mem_names_iff.1 hv)).2
  · exact fun hn => ⟨forall₂_spells_text h hn, (parse_eq_ok_iff_spells.1 h).2⟩

theorem parse_text_plain (h : parse rules source = .ok f) : parse {} f.text = .ok f :=
  (parse_text_iff h).2 fun _ => resolve_plain h

end Formula

end Reading

end FormulaSheet
