import Mathlib
import FormulaSheet.Proofs.Content
import FormulaSheet.Proofs.Except

namespace FormulaSheet

def upcase (s : String) : String := s.map Char.toUpper

theorem toList_upcase (s : String) : (upcase s).toList = s.toList.map Char.toUpper :=
  String.toList_map

section Characters

def lowerLetters : List Char := (List.range 26).map fun i => Char.ofNat (0x61 + i)

theorem mem_lowerLetters {c : Char} (h : 'a'.val ≤ c.val) (h' : c.val ≤ 'z'.val) :
    c ∈ lowerLetters := by
  have hl : 0x61 ≤ c.toNat := UInt32.le_iff_toNat_le.1 h
  have hu : c.toNat ≤ 0x7A := UInt32.le_iff_toNat_le.1 h'
  refine List.mem_map.2 ⟨c.toNat - 0x61, List.mem_range.2 (by omega), ?_⟩
  rw [show 0x61 + (c.toNat - 0x61) = c.toNat by omega, Char.ofNat_toNat]

def CaseBlind {α : Type} (f : Char → α) : Prop := ∀ c, f c.toUpper = f c

theorem caseBlind_of_letters {α : Type} [DecidableEq α] {f : Char → α}
    (h : lowerLetters.all fun c => f c.toUpper = f c) : CaseBlind f := by
  intro c
  by_cases hc : 'a'.val ≤ c.val ∧ c.val ≤ 'z'.val
  · simpa using List.all_eq_true.1 h c (mem_lowerLetters hc.1 hc.2)
  · rw [Char.toUpper, dif_neg hc]

theorem caseBlind_isDigit : CaseBlind Char.isDigit := caseBlind_of_letters (by decide)

theorem caseBlind_isBlank : CaseBlind isBlank := caseBlind_of_letters (by decide)

theorem caseBlind_isSymbol : CaseBlind isSymbol := caseBlind_of_letters (by decide)

theorem caseBlind_isNameStart : CaseBlind isNameStart := caseBlind_of_letters (by decide)

theorem caseBlind_isNamePart : CaseBlind isNamePart := caseBlind_of_letters (by decide)

theorem toUpper_toUpper (c : Char) : c.toUpper.toUpper = c.toUpper :=
  caseBlind_of_letters (f := Char.toUpper) (by decide) c

theorem toUpper_of_isDigit {c : Char} (h : c.isDigit) : c.toUpper = c := by
  have hc : (if c.toUpper.isDigit then c.toUpper else '0') = if c.isDigit then c else '0' :=
    caseBlind_of_letters (f := fun c => if c.isDigit then c else '0') (by decide) c
  rwa [caseBlind_isDigit c, if_pos h, if_pos h] at hc

theorem isExponentLetter_toUpper (c : Char) :
    (c.toUpper = 'e' ∨ c.toUpper = 'E') ↔ (c = 'e' ∨ c = 'E') := by
  have h : CaseBlind fun c => decide (c = 'e' ∨ c = 'E') := caseBlind_of_letters (by decide)
  exact decide_eq_decide.1 (h c)

/-- A character that is no letter is only its own upper case. -/
theorem toUpper_eq_iff {d : Char} (h : lowerLetters.all fun c => c.toUpper ≠ d ∧ c ≠ d) (c : Char) :
    c.toUpper = d ↔ c = d := by
  by_cases hc : 'a'.val ≤ c.val ∧ c.val ≤ 'z'.val
  · have := List.all_eq_true.1 h c (mem_lowerLetters hc.1 hc.2)
    simp only [decide_eq_true_eq] at this
    exact iff_of_false this.1 this.2
  · rw [Char.toUpper, dif_neg hc]

end Characters

theorem upcase_upcase (s : String) : upcase (upcase s) = upcase s := by
  rw [upcase, upcase, String.map_map]
  congr 1
  exact funext toUpper_toUpper

theorem idempotent_uppercase (rules : Naming) : rules.uppercase.Idempotent := upcase_upcase

section Runs

variable {p : Char → Bool} (h : CaseBlind p) (cs : List Char)
include h

theorem takeWhile_upper :
    (cs.map Char.toUpper).takeWhile p = (cs.takeWhile p).map Char.toUpper := by
  rw [List.takeWhile_map, Function.comp_def]
  simp only [h _]

theorem dropWhile_upper :
    (cs.map Char.toUpper).dropWhile p = (cs.dropWhile p).map Char.toUpper := by
  rw [List.dropWhile_map, Function.comp_def]
  simp only [h _]

theorem all_upper : (cs.map Char.toUpper).all p = cs.all p := by
  rw [List.all_map, Function.comp_def]
  simp only [h _]

end Runs

section Scanning

def upperParts (parts : List Char × List Char) : List Char × List Char :=
  (parts.1.map Char.toUpper, parts.2.map Char.toUpper)

variable (cs : List Char)

theorem scanMantissa?_upper :
    scanMantissa? (cs.map Char.toUpper) = (scanMantissa? cs).map upperParts := by
  unfold scanMantissa?
  rw [takeWhile_upper caseBlind_isDigit, dropWhile_upper caseBlind_isDigit]
  generalize cs.takeWhile Char.isDigit = whole
  cases cs.dropWhile Char.isDigit with
  | nil => cases whole <;> rfl
  | cons c rest =>
    by_cases hc : c = '.'
    · subst hc
      have hp : '.'.toUpper = '.' := by decide
      simp only [List.map_cons, hp, takeWhile_upper caseBlind_isDigit,
        dropWhile_upper caseBlind_isDigit, List.map_eq_nil_iff]
      split
      · rfl
      · simp [upperParts, hp]
    · have hu : c.toUpper ≠ '.' := fun h => hc ((toUpper_eq_iff (by decide) c).1 h)
      cases whole <;> simp [hc, hu, upperParts]

theorem splitSign_upper : splitSign (cs.map Char.toUpper) = upperParts (splitSign cs) := by
  cases cs with
  | nil => rfl
  | cons c cs =>
    have hp := toUpper_eq_iff (d := '+') (by decide) c
    have hm := toUpper_eq_iff (d := '-') (by decide) c
    by_cases hc : c = '+'
    · rw [List.map_cons, hp.2 hc, hc]
      rfl
    by_cases hd : c = '-'
    · rw [List.map_cons, hm.2 hd, hd]
      rfl
    · have hp : c.toUpper ≠ '+' := fun h => hc (hp.1 h)
      have hm : c.toUpper ≠ '-' := fun h => hd (hm.1 h)
      simp [splitSign, hc, hd, hp, hm, upperParts]

theorem scanExponent_upper : scanExponent (cs.map Char.toUpper) = upperParts (scanExponent cs) := by
  cases cs with
  | nil => rfl
  | cons c cs =>
    rw [List.map_cons, scanExponent, scanExponent, splitSign_upper]
    simp only [upperParts, takeWhile_upper caseBlind_isDigit, dropWhile_upper caseBlind_isDigit,
      isExponentLetter_toUpper, ne_eq, List.map_eq_nil_iff]
    split <;> simp

theorem scanNumeral?_upper :
    scanNumeral? (cs.map Char.toUpper) = (scanNumeral? cs).map upperParts := by
  rw [scanNumeral?, scanNumeral?, scanMantissa?_upper, Option.map_map, Option.map_map]
  congr 1
  funext parts
  cases parts with
  | mk mantissa rest => simp [upperParts, scanExponent_upper]

theorem scanToken?_upper : scanToken? (cs.map Char.toUpper) = (scanToken? cs).map upperParts := by
  cases cs with
  | nil => rfl
  | cons c cs =>
    have hn := scanNumeral?_upper (c :: cs)
    rw [List.map_cons] at hn ⊢
    rw [scanToken?, scanToken?, caseBlind_isSymbol c, caseBlind_isNameStart c, hn,
      takeWhile_upper caseBlind_isNamePart, dropWhile_upper caseBlind_isNamePart]
    split
    · rfl
    · split <;> rfl

theorem scanStray_upper (acc : List Char) :
    scanStray (acc.map Char.toUpper) (cs.map Char.toUpper) = upperParts (scanStray acc cs) := by
  induction cs generalizing acc with
  | nil => simp [scanStray, upperParts]
  | cons c cs ih =>
    have ht := scanToken?_upper (c :: cs)
    rw [List.map_cons] at ht
    rw [List.map_cons, scanStray, scanStray, ht, caseBlind_isBlank c, Option.isSome_map]
    split
    · simp [upperParts]
    · exact ih (c :: acc)

/-- Letters in upper case make no other tokens. -/
theorem scanFrom_upper (acc : List (List Char)) :
    scanFrom (acc.map (List.map Char.toUpper)) (cs.map Char.toUpper) =
      (scanFrom acc cs).map (List.map Char.toUpper) := by
  fun_induction scanFrom acc cs with
  | case1 acc => rw [List.map_nil, scanFrom_nil, List.map_reverse]
  | case2 acc c cs hb ih => rw [List.map_cons, scanFrom_blank _ (by rwa [caseBlind_isBlank c]), ih]
  | case3 acc c cs hb token rest h ih =>
    have ht := scanToken?_upper (c :: cs)
    rw [h] at ht
    rw [List.map_cons, scanFrom_token (by rwa [caseBlind_isBlank c, ← Bool.not_eq_true]) ht]
    exact ih
  | case4 acc c cs hb h ih =>
    have ht := scanToken?_upper (c :: cs)
    rw [h] at ht
    rw [List.map_cons, scanFrom_stray _ (by rwa [caseBlind_isBlank c, ← Bool.not_eq_true]) ht,
      ← ih]
    rw [show [c.toUpper] = [c].map Char.toUpper from rfl, scanStray_upper]
    rfl

theorem tokenize_upcase (source : String) :
    tokenize (upcase source) = (tokenize source).map upcase := by
  rw [tokenize, tokenize, toList_upcase, ← List.map_nil, scanFrom_upper, List.map_map,
    List.map_map]
  congr 1
  funext cs
  simp only [Function.comp_apply, ← String.toList_inj, toList_upcase, String.toList_ofList]

end Scanning

section Literals

theorem ofDigits_upper {α : Type} (ds : List Char) (read : Nat → Option α) :
    (if (ds.map Char.toUpper).isEmpty || !(ds.map Char.toUpper).all Char.isDigit then none
      else read (Decimal.ofDigits (ds.map Char.toUpper))) =
    if ds.isEmpty || !ds.all Char.isDigit then none else read (Decimal.ofDigits ds) := by
  rw [List.isEmpty_map, all_upper caseBlind_isDigit]
  by_cases h : ds.all Char.isDigit
  · have hd : ds.map Char.toUpper = ds := by
      refine (List.map_congr_left fun c hc => ?_).trans (List.map_id ds)
      exact toUpper_of_isDigit (List.all_eq_true.1 h c hc)
    rw [hd]
  · simp [h]

theorem readExponent_upper (cs : List Char) :
    readExponent (cs.map Char.toUpper) = readExponent cs := by
  cases cs with
  | nil => rfl
  | cons c cs =>
    have hsign : (splitSign cs).1.map Char.toUpper = (splitSign cs).1 := by
      have hs := splitSign_fst_mem cs
      simp only [List.mem_cons, List.not_mem_nil, or_false] at hs
      rcases hs with hs | hs | hs <;> rw [hs] <;> decide
    rw [List.map_cons, readExponent_cons, readExponent_cons, splitSign_upper, upperParts, hsign]
    exact ofDigits_upper (splitSign cs).2 fun n =>
      some (if (splitSign cs).1 = ['-'] then -(n : Int) else n)

theorem readDecimal_upper (cs : List Char) :
    readDecimal (cs.map Char.toUpper) = readDecimal cs := by
  have he : CaseBlind fun c => c != 'e' && c != 'E' := caseBlind_of_letters (by decide)
  have hp : CaseBlind fun c => c != '.' := caseBlind_of_letters (by decide)
  unfold readDecimal
  simp only [List.span_eq_takeWhile_dropWhile, takeWhile_upper he, dropWhile_upper he,
    takeWhile_upper hp, dropWhile_upper hp, readExponent_upper, ← List.map_drop, ← List.map_append,
    List.length_map]
  generalize cs.dropWhile (fun c => c != 'e' && c != 'E') = tail
  generalize cs.takeWhile (fun c => c != 'e' && c != 'E') = mantissa
  exact ofDigits_upper _ fun n => (readExponent tail).map fun e =>
    Decimal.mk n (e - ((mantissa.dropWhile (· != '.')).drop 1).length)

end Literals

def FormatError.upcase : FormatError → FormatError
  | empty => empty
  | invalidToken t => invalidToken (FormulaSheet.upcase t)
  | numberOutOfRange t => numberOutOfRange (FormulaSheet.upcase t)
  | invalidStart t => invalidStart (FormulaSheet.upcase t)
  | invalidEnd t => invalidEnd (FormulaSheet.upcase t)
  | unexpectedToken after t => unexpectedToken (FormulaSheet.upcase after) (FormulaSheet.upcase t)
  | unbalancedParens => unbalancedParens
  | illegalNormalization v n =>
    illegalNormalization (FormulaSheet.upcase v) (FormulaSheet.upcase n)
  | rejectedVariable v => rejectedVariable (FormulaSheet.upcase v)

section Parsing

variable {rules : Naming} {raw : String}

theorem isNumeral_upcase (raw : String) : isNumeral (upcase raw) = isNumeral raw := by
  rw [isNumeral, isNumeral, toList_upcase, scanNumeral?_upper]
  rcases scanNumeral? raw.toList with _ | ⟨numeral, _ | ⟨c, rest⟩⟩ <;> rfl

theorem isVariable_upcase (raw : String) : isVariable (upcase raw) = isVariable raw := by
  rw [isVariable, isVariable, toList_upcase]
  cases raw.toList with
  | nil => rfl
  | cons c cs =>
    change (isNameStart c.toUpper && (cs.map Char.toUpper).all isNamePart) = _
    rw [caseBlind_isNameStart c, all_upper caseBlind_isNamePart]

theorem readNumber_upcase (h : isNumeral raw) :
    readNumber (upcase raw).toList = readNumber raw.toList := by
  rw [readNumber_of_isNumeral h, readNumber_of_isNumeral ((isNumeral_upcase raw).trans h),
    toList_upcase, readDecimal_upper]

theorem upcase_eq_singleton_iff {d : Char}
    (h : lowerLetters.all fun c => c.toUpper ≠ d ∧ c ≠ d) :
    upcase raw = String.singleton d ↔ raw = String.singleton d := by
  rw [← String.toList_inj, ← String.toList_inj, toList_upcase, String.toList_singleton]
  rcases raw.toList with _ | ⟨c, _ | ⟨c', cs⟩⟩ <;> simp [toUpper_eq_iff h]

theorem ofSymbol?_upcase (raw : String) :
    Operator.ofSymbol? (upcase raw) = Operator.ofSymbol? raw := by
  apply Option.ext
  intro o
  rw [Operator.ofSymbol?_eq_some_iff, Operator.ofSymbol?_eq_some_iff]
  cases o <;> exact upcase_eq_singleton_iff (by decide)

theorem Naming.resolve_upcase (rules : Naming) (name : String) :
    (rules.uppercase.resolve (upcase name)).mapError FormatError.upcase =
      (rules.uppercase.resolve name).mapError FormatError.upcase := by
  have hn : rules.uppercase.normalize (upcase name) = rules.uppercase.normalize name :=
    upcase_upcase name
  rw [resolve, resolve, hn]
  split
  · simp only [Except.mapError, FormatError.upcase, upcase_upcase]
  · rfl

theorem Token.ofText_upcase (rules : Naming) (raw : String) :
    (Token.ofText rules.uppercase (upcase raw)).mapError FormatError.upcase =
      (Token.ofText rules.uppercase raw).mapError FormatError.upcase := by
  have ho : upcase raw = "(" ↔ raw = "(" := upcase_eq_singleton_iff (d := '(') (by decide)
  have hc : upcase raw = ")" ↔ raw = ")" := upcase_eq_singleton_iff (d := ')') (by decide)
  unfold ofText
  simp only [ho, hc, ofSymbol?_upcase, isNumeral_upcase, isVariable_upcase]
  split
  · rfl
  split
  · rfl
  split
  · rfl
  split
  · next h =>
    rw [readNumber_upcase h]
    split
    · rfl
    · simp only [Except.mapError, FormatError.upcase, upcase_upcase]
  split
  · exact mapError_map_congr (rules.resolve_upcase raw)
  · simp only [Except.mapError, FormatError.upcase, upcase_upcase]

end Parsing

namespace Formula

variable {rules : Naming}

theorem Beginning.follow_upcase (p : Beginning) (raw : String) (t : Token) :
    (p.follow (upcase raw) t).mapError FormatError.upcase =
      (p.follow raw t).mapError FormatError.upcase := by
  unfold follow
  split <;> split <;> simp only [Except.mapError, FormatError.upcase, upcase_upcase]

theorem Beginning.push_upcase (p : Beginning) (raw : String) :
    (p.push rules.uppercase (upcase raw)).mapError FormatError.upcase =
      (p.push rules.uppercase raw).mapError FormatError.upcase := by
  unfold push
  refine mapError_bind_congr (Token.ofText_upcase rules raw) fun t => ?_
  exact mapError_bind_congr (p.follow_upcase raw t) fun _ => rfl

/-- A formula in upper case is the same formula, or it is refused in the same way. -/
theorem parse_upcase (rules : Naming) (source : String) :
    (parse rules.uppercase (upcase source)).mapError FormatError.upcase =
      (parse rules.uppercase source).mapError FormatError.upcase := by
  rw [parse, parse, tokenize_upcase]
  exact mapError_bind_congr (mapError_foldlM_congr Beginning.push_upcase _ _) fun _ => rfl

end Formula

end FormulaSheet
