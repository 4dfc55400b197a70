import FormulaSheet.Proofs.Except
import FormulaSheet.Proofs.Formula.Blanks
import FormulaSheet.Proofs.Formula.Derivation

namespace FormulaSheet

open Formula (Beginning)

/-- Whether somewhere a `)` stands with no parenthesis open. -/
def ClosesNothing (raws : List String) : Prop :=
  ∃ before after, raws = before ++ ")" :: after ∧ before.count "(" ≤ before.count ")"

/-- Whether an error of a text is that it ends too early: it is empty, it ends with an operator or
with `(`, or a parenthesis is still open. -/
def FormatError.AtEnd (raws : List String) : FormatError → Prop
  | empty | invalidEnd _ => True
  | unbalancedParens => ¬ClosesNothing raws
  | _ => False

variable {rules : Naming} {raw source : String} {raws : List String} {t : Token} {e : FormatError}
  {p q : Beginning}

section Refusals

theorem Naming.resolve_error (h : rules.resolve raw = .error e) : ¬e.AtEnd raws := by
  unfold resolve at h
  dsimp only at h
  split at h
  · cases h
    exact not_false
  split at h
  · cases h
    exact not_false
  · cases h

theorem Token.ofText_error (h : Token.ofText rules raw = .error e) : ¬e.AtEnd raws := by
  unfold ofText at h
  split at h
  · cases h
  split at h
  · cases h
  split at h
  · cases h
  split at h
  · split at h
    · cases h
    · cases h
      exact not_false
  split at h
  · cases hr : rules.resolve raw with
    | ok v =>
      rw [hr] at h
      cases h
    | error e' =>
      rw [hr] at h
      cases h
      exact rules.resolve_error hr
  · cases h
    exact not_false

namespace Formula.Beginning

theorem follow_error (h : p.follow raw t = .error e) : ¬e.AtEnd raws := by
  unfold follow at h
  split at h
  · split at h
    · cases h
    · cases h
      exact not_false
  · split at h
    · cases h
      exact not_false
    · cases h

theorem enclose_error (h : p.enclose t = .error e) :
    e = .unbalancedParens ∧ t = .closing ∧ p.depth = 0 := by
  unfold enclose at h
  split at h
  · cases h
  · split at h
    · next hd =>
      cases h
      exact ⟨rfl, rfl, hd⟩
    · cases h
  · cases h

/-- At a token no error is met that could also be met at the end, but for a `)` too many. -/
theorem push_error (h : p.push rules raw = .error e) (he : e.AtEnd raws) :
    e = .unbalancedParens ∧ raw = ")" ∧ p.depth = 0 := by
  unfold push at h
  cases ht : Token.ofText rules raw with
  | error e' =>
    rw [ht] at h
    cases h
    exact absurd he (Token.ofText_error ht)
  | ok t =>
    rw [ht] at h
    cases hf : p.follow raw t with
    | error e' =>
      simp only [bind, Except.bind, hf] at h
      cases h
      exact absurd he (follow_error hf)
    | ok _ =>
      cases hd : p.enclose t with
      | error e' =>
        simp only [bind, Except.bind, hf, hd] at h
        cases h
        obtain ⟨rfl, rfl, hdepth⟩ := enclose_error hd
        exact ⟨rfl, Token.ofText_eq_ok_iff.1 ht, hdepth⟩
      | ok depth =>
        simp only [bind, Except.bind, hf, hd] at h
        cases h

theorem finish_error (h : p.finish = .error e) : e = .empty ∨ (∃ t, e = .invalidEnd t) ∨
    e = .unbalancedParens ∧ p.depth ≠ 0 := by
  unfold finish at h
  split at h
  · cases h
    exact .inl rfl
  · split at h
    · cases h
      exact .inr (.inl ⟨_, rfl⟩)
    · split at h
      · next hd =>
        cases h
        exact .inr (.inr ⟨rfl, hd⟩)
      · cases h

end Formula.Beginning

end Refusals

section Balance

open Formula.Beginning

/-- The open parentheses are those that were opened and not closed again. -/
theorem depth_push (h : p.push rules raw = .ok q) :
    q.depth + [raw].count ")" = p.depth + [raw].count "(" := by
  obtain ⟨t, ht, hx⟩ := push_eq_ok_iff.1 h
  obtain ⟨-, -, hd⟩ := extend?_eq_some_iff.1 hx
  have hs : t.Spells rules raw := Token.ofText_eq_ok_iff.1 ht
  have hword : isNumeral raw ∨ isVariable raw → [raw].count "(" = 0 ∧ [raw].count ")" = 0 := by
    intro hw
    obtain ⟨hopen, hclose, -⟩ := Token.no_symbol hw
    simp [hopen, hclose]
  cases t with
  | number x =>
    obtain ⟨hopen, hclose⟩ := hword (.inl hs.1)
    rw [hopen, hclose, Except.ok.inj hd]
  | name v =>
    obtain ⟨hopen, hclose⟩ := hword (.inr hs.1)
    rw [hopen, hclose, Except.ok.inj hd]
  | op o =>
    obtain rfl : raw = String.singleton o.symbol := hs
    rw [← Except.ok.inj hd]
    cases o <;> rfl
  | opening =>
    obtain rfl : raw = "(" := hs
    rw [← Except.ok.inj hd]
    rfl
  | closing =>
    obtain rfl : raw = ")" := hs
    have hcount : [")"].count ")" = 1 ∧ [")"].count "(" = 0 := by decide
    unfold enclose at hd
    dsimp only at hd
    split at hd
    · cases hd
    · have hd := Except.ok.inj hd
      omega

theorem depth_pushAll (h : raws.foldlM (push rules) p = .ok q) :
    q.depth + raws.count ")" = p.depth + raws.count "(" := by
  induction raws generalizing p with
  | nil =>
    obtain rfl : p = q := by simpa [pure, Except.pure] using h
    rfl
  | cons raw raws ih =>
    rw [List.foldlM_cons] at h
    obtain ⟨p', hp, hq⟩ := bind_eq_ok_iff.1 h
    have hstep := depth_push hp
    have hrest := ih hq
    rw [← List.singleton_append, List.count_append, List.count_append]
    omega

/-- Where a `)` closes nothing the text is given up. -/
theorem not_closesNothing_of_pushAll (h : raws.foldlM (push rules) {} = .ok q) :
    ¬ClosesNothing raws := by
  rintro ⟨before, after, rfl, hcount⟩
  rw [List.append_cons, List.foldlM_append] at h
  obtain ⟨p, hp, -⟩ := bind_eq_ok_iff.1 h
  have hd := depth_pushAll hp
  rw [List.count_append, List.count_append] at hd
  have hlast : [")"].count ")" = 1 ∧ [")"].count "(" = 0 := by decide
  have hzero : (({} : Beginning)).depth = 0 := rfl
  omega

end Balance

section Continuations

open Formula.Beginning

theorem Naming.admits_zero (rules : Naming) : rules.Admits "0" := by
  have hx : readNumber "0".toList = some (Binary.signed false 0) :=
    readNumber_of_isNumeral (by decide)
  refine .numeral (by decide) hx ?_
  rw [Binary.isFinite_iff, Binary.toNat_toBits_signed false (Nat.zero_le _)]
  decide

theorem tokenize_closing (n : Nat) :
    tokenize (String.ofList (List.replicate n ')')) = List.replicate n ")" := by
  have hs : ∀ acc, scanFrom acc (List.replicate n ')') = acc.reverse ++ List.replicate n [')'] := by
    induction n with
    | zero => simp [scanFrom_nil]
    | succ n ih =>
      intro acc
      rw [List.replicate_succ, scanFrom_of_scanToken? (scanToken?_symbol rfl), ih]
      simp [List.replicate_succ]
  rw [tokenize, String.toList_ofList, hs, List.reverse_nil, List.nil_append, List.map_replicate]

theorem pushAll_closing (rules : Naming) {n : Nat} (hp : p.awaitsOperand = false)
    (hd : p.depth = n) : ∃ q, (List.replicate n ")").foldlM (push rules) p = .ok q ∧
      q.awaitsOperand = false ∧ q.depth = 0 := by
  induction n generalizing p with
  | zero => exact ⟨p, rfl, hp, hd⟩
  | succ n ih =>
    obtain ⟨p', hp', ha, hd'⟩ := push_closing rules hp hd
    obtain ⟨q, hq, hend⟩ := ih ha hd'
    exact ⟨q, by rw [List.replicate_succ, pushAll_cons hp', hq], hend⟩

/-- The beginning of a formula can always be completed: by an operand, if one has to follow, and by
as many `)` as there are open parentheses. -/
theorem exists_completion (rules : Naming) (p : Beginning) : ∃ w q,
    (tokenize w).foldlM (push rules) p = .ok q ∧ q.awaitsOperand = false ∧ q.depth = 0 := by
  cases hp : p.awaitsOperand with
  | false =>
    obtain ⟨q, hq, hend⟩ := pushAll_closing rules hp rfl
    exact ⟨_, q, by rw [tokenize_closing, hq], hend⟩
  | true =>
    obtain ⟨p', hp', ha, hd⟩ := push_operand (.inl (by decide)) rules.admits_zero hp
    obtain ⟨q, hq, hend⟩ := pushAll_closing rules ha hd
    refine ⟨"0" ++ " " ++ String.ofList (List.replicate p.depth ')'), q, ?_, hend⟩
    have hzero : tokenize "0" = ["0"] := by cbv
    rw [tokenize_append, tokenize_closing, hzero, List.singleton_append, pushAll_cons hp', hq]

end Continuations

namespace Formula

open Beginning

/-- Errors tell an incomplete text from a hopeless one: what is only found at the end can be made
good by what follows, and what is found at a token cannot. -/
theorem parse_append_of_error (h : parse rules source = .error e) :
    (e.AtEnd (tokenize source) ↔ ∃ p, (tokenize source).foldlM (push rules) {} = .ok p) ∧
    (e.AtEnd (tokenize source) → ∃ w f, parse rules (source ++ " " ++ w) = .ok f) ∧
    (¬e.AtEnd (tokenize source) → ∀ w, parse rules (source ++ " " ++ w) = .error e) := by
  cases hp : (tokenize source).foldlM (push rules) {} with
  | error e' =>
    obtain rfl : e' = e := by
      rw [parse, hp] at h
      exact Except.error.inj h
    have hend : ¬e'.AtEnd (tokenize source) := by
      intro he
      obtain ⟨before, raw, after, q, hr, hq, hpush⟩ := exists_of_foldlM_error hp
      obtain ⟨rfl, rfl, hd⟩ := push_error hpush he
      have hdepth := depth_pushAll hq
      have hzero : (({} : Beginning)).depth = 0 := rfl
      exact he ⟨before, after, hr, by omega⟩
    refine ⟨by simp [hend], fun he => absurd he hend, fun _ w => ?_⟩
    rw [parse, tokenize_append, List.foldlM_append, hp]
    rfl
  | ok p =>
    have hfinish : p.finish = .error e := by rwa [parse, hp] at h
    have hend : e.AtEnd (tokenize source) := by
      rcases finish_error hfinish with rfl | ⟨t, rfl⟩ | ⟨rfl, -⟩
      · trivial
      · trivial
      · exact not_closesNothing_of_pushAll hp
    refine ⟨by simp [hend], fun _ => ?_, fun he => absurd hend he⟩
    obtain ⟨w, q, hq, ha, hd⟩ := exists_completion rules p
    refine ⟨w, ⟨q.tokens.reverse⟩, ?_⟩
    rw [parse, tokenize_append, pushAll_append hp, hq]
    exact finish_eq_ok_iff.2 ⟨ha, hd, rfl⟩

/-- Parentheses that are not balanced are only hopeless if one closes nothing. -/
theorem parse_append_of_error_parens :
    parse {} "(x" = .error .unbalancedParens ∧ (∃ w f, parse {} ("(x" ++ " " ++ w) = .ok f) ∧
      parse {} "x) y" = .error .unbalancedParens ∧
        ∀ w, parse {} ("x) y" ++ " " ++ w) = .error .unbalancedParens := by
  have hopen : parse {} "(x" = .error .unbalancedParens := by cbv
  have hclose : parse {} "x) y" = .error .unbalancedParens := by cbv
  have ht : tokenize "x) y" = ["x"] ++ ")" :: ["y"] := by cbv
  have hnone : ClosesNothing (tokenize "x) y") := ⟨["x"], ["y"], ht, by decide⟩
  obtain ⟨hend, hmore, -⟩ := parse_append_of_error hopen
  obtain ⟨-, -, hless⟩ := parse_append_of_error hclose
  exact ⟨hopen, hmore (hend.2 ⟨⟨[.name "x", .opening], 1⟩, by cbv⟩), hclose,
    hless (not_not_intro hnone)⟩

end Formula

end FormulaSheet
