import FormulaSheet.Formula.Token
import FormulaSheet.Proofs.Formula.Pattern
import FormulaSheet.Text.Run

namespace FormulaSheet

open Pattern

section Numerals

variable {p : Char → Bool} {m x t n rest whole places ds sign tail cs : List Char} {e : Char}

theorem run_of_head (h : ∀ c ∈ tail.head?, p c = false) :
    tail.takeWhile p = [] ∧ tail.dropWhile p = tail := by
  have hnil : ∀ c ∈ ([] : List Char), p c := by simp
  exact ⟨takeWhile_run hnil h, dropWhile_run hnil h⟩

theorem matches_many_iff : (many p).Matches t ↔ t ≠ [] ∧ ∀ c ∈ t, p c := by
  constructor
  · rintro ⟨_, v, rfl, ⟨c, rfl, hc⟩, hv⟩
    exact ⟨by simp, List.forall_mem_cons.2 ⟨hc, hv⟩⟩
  · rintro ⟨ht, h⟩
    obtain ⟨c, v, rfl⟩ := List.exists_cons_of_ne_nil ht
    exact ⟨[c], v, rfl, ⟨c, rfl, (List.forall_mem_cons.1 h).1⟩, (List.forall_mem_cons.1 h).2⟩

/-- Digits, or digits around a point, of which one side may be empty. -/
theorem mantissa_cases (h : mantissa.Matches m) : ∃ whole, (∀ c ∈ whole, c.isDigit) ∧
    (whole ≠ [] ∧ m = whole ∨ ∃ places, (∀ c ∈ places, c.isDigit) ∧ (whole ≠ [] ∨ places ≠ []) ∧
      m = whole ++ '.' :: places) := by
  rcases h with ⟨whole, _, rfl, hw, _, places, rfl, ⟨c, rfl, hc⟩, hp⟩ |
    ⟨whole, _, rfl, hw, _, places, rfl, ⟨c, rfl, hc⟩, hp⟩ | h
  · obtain ⟨hne, hw⟩ := matches_many_iff.1 hw
    obtain rfl : c = '.' := by simpa using hc
    exact ⟨whole, hw, .inr ⟨places, hp, .inl hne, rfl⟩⟩
  · obtain ⟨hne, hp⟩ := matches_many_iff.1 hp
    obtain rfl : c = '.' := by simpa using hc
    exact ⟨whole, hw, .inr ⟨places, hp, .inr hne, rfl⟩⟩
  · obtain ⟨hne, hw⟩ := matches_many_iff.1 h
    exact ⟨m, hw, .inl ⟨hne, rfl⟩⟩

theorem exponent_cases (h : exponent.Matches x) : ∃ e sign ds, (e = 'e' ∨ e = 'E') ∧
    sign ∈ [[], ['+'], ['-']] ∧ ds ≠ [] ∧ (∀ c ∈ ds, c.isDigit) ∧ x = e :: (sign ++ ds) := by
  obtain ⟨_, _, rfl, ⟨e, rfl, he⟩, sign, ds, rfl, hs, hd⟩ := h
  obtain ⟨hne, hd⟩ := matches_many_iff.1 hd
  refine ⟨e, sign, ds, by simpa using he, ?_, hne, hd, rfl⟩
  rcases hs with ⟨s, rfl, hs⟩ | rfl
  · have hs : s = '+' ∨ s = '-' := by simpa using hs
    rcases hs with rfl | rfl <;> simp
  · simp

theorem scanMantissa?_point (hw : ∀ c ∈ whole, c.isDigit) (hp : ∀ c ∈ places, c.isDigit)
    (hne : whole ≠ [] ∨ places ≠ []) : scanMantissa? ((whole ++ '.' :: places) ++ tail) =
      some ((whole ++ '.' :: places) ++ tail.takeWhile Char.isDigit,
        tail.dropWhile Char.isDigit) := by
  rw [List.append_assoc, List.cons_append, scanMantissa?, takeWhile_run hw (by simp),
    dropWhile_run hw (by simp)]
  show (if whole = [] ∧ (places ++ tail).takeWhile Char.isDigit = [] then none
    else some (whole ++ '.' :: (places ++ tail).takeWhile Char.isDigit,
      (places ++ tail).dropWhile Char.isDigit)) = _
  rw [List.takeWhile_append_of_pos hp, List.dropWhile_append_of_pos hp, if_neg]
  · simp
  · rintro ⟨rfl, h⟩
    simp_all

/-- A mantissa goes on at most with digits or a point. -/
theorem scanMantissa?_of_head (h : mantissa.Matches m)
    (ht : ∀ c ∈ tail.head?, c.isDigit = false ∧ c ≠ '.') :
    scanMantissa? (m ++ tail) = some (m, tail) := by
  have hd : ∀ c ∈ tail.head?, c.isDigit = false := fun c hc => (ht c hc).1
  obtain ⟨whole, hw, ⟨hne, rfl⟩ | ⟨places, hp, hne, rfl⟩⟩ := mantissa_cases h
  · rw [scanMantissa?, takeWhile_run hw hd, dropWhile_run hw hd]
    cases tail with
    | nil => cases m <;> simp_all
    | cons c tail =>
      have hc := (ht c rfl).2
      cases m <;> simp_all
  · obtain ⟨htake, hdrop⟩ := run_of_head hd
    rw [scanMantissa?_point hw hp hne, htake, hdrop, List.append_nil]

theorem scanMantissa?_extends (h : mantissa.Matches m) (tail : List Char) :
    ∃ more rest, scanMantissa? (m ++ tail) = some (m ++ more, rest) := by
  obtain ⟨whole, hw, ⟨hne, rfl⟩ | ⟨places, hp, hne, rfl⟩⟩ := mantissa_cases h
  · rw [scanMantissa?, List.takeWhile_append_of_pos hw, List.dropWhile_append_of_pos hw]
    split
    · rw [if_neg (by simp [hne])]
      exact ⟨_, _, by rw [List.append_assoc]⟩
    · simp_all
    · exact ⟨_, _, rfl⟩
  · exact ⟨_, _, scanMantissa?_point hw hp hne⟩

theorem splitSign_digits (hs : sign ∈ [[], ['+'], ['-']]) (hne : ds ≠ [])
    (hd : ∀ c ∈ ds, c.isDigit) : splitSign (sign ++ (ds ++ tail)) = (sign, ds ++ tail) := by
  obtain ⟨d, ds, rfl⟩ := List.exists_cons_of_ne_nil hne
  have hd := hd d List.mem_cons_self
  simp only [List.mem_cons, List.not_mem_nil, or_false] at hs
  obtain rfl | rfl | rfl := hs
  · rw [List.nil_append, List.cons_append, splitSign]
    · rintro _ h
      simp_all
    · rintro _ h
      simp_all
  · rfl
  · rfl

/-- An exponent goes on at most with digits. -/
theorem scanExponent_exponent (h : exponent.Matches x) (tail : List Char) :
    scanExponent (x ++ tail) =
      (x ++ tail.takeWhile Char.isDigit, tail.dropWhile Char.isDigit) := by
  obtain ⟨e, sign, ds, he, hs, hne, hd, rfl⟩ := exponent_cases h
  rw [List.cons_append, List.append_assoc, scanExponent, splitSign_digits hs hne hd]
  dsimp only
  rw [List.takeWhile_append_of_pos hd, List.dropWhile_append_of_pos hd,
    if_pos ⟨he, by simp [hne]⟩]
  simp

theorem exponent_head (h : exponent.Matches x) :
    ∀ c ∈ (x ++ tail).head?, c.isDigit = false ∧ c ≠ '.' := by
  obtain ⟨e, sign, ds, he, -, -, -, rfl⟩ := exponent_cases h
  rintro c hc
  obtain rfl : e = c := by simpa using hc
  rcases he with rfl | rfl <;> decide

theorem matches_of_scanNumeral? (h : scanNumeral? cs = some (n, rest)) : numeral.Matches n := by
  have hr : (numeral.rests cs).head? = some rest := by rw [head?_numeral, h, Option.map_some]
  obtain ⟨t, ht, he⟩ := mem_rests_iff.1 (List.mem_of_head? hr)
  rwa [List.append_cancel_right ((scanNumeral?_append h).1.trans he)]

theorem scanNumeral?_of_mantissa (h : scanMantissa? cs = some (m, tail)) : scanNumeral? cs =
    some (m ++ (scanExponent tail).1, (scanExponent tail).2) := by
  rw [scanNumeral?, h, Option.map_some]

/-- The scanner finds no shorter numeral than there is. -/
theorem scanNumeral?_extends (h : numeral.Matches t) (tail : List Char) :
    ∃ more rest, scanNumeral? (t ++ tail) = some (t ++ more, rest) := by
  obtain ⟨m, x, rfl, hm, hx | rfl⟩ := h
  · have hs : scanMantissa? (m ++ (x ++ tail)) = some (m, x ++ tail) :=
      scanMantissa?_of_head hm (exponent_head hx)
    rw [← List.append_assoc] at hs
    rw [scanNumeral?_of_mantissa hs, scanExponent_exponent hx, ← List.append_assoc]
    exact ⟨_, _, rfl⟩
  · obtain ⟨more, rest, hs⟩ := scanMantissa?_extends hm tail
    rw [List.append_nil, scanNumeral?_of_mantissa hs, List.append_assoc]
    exact ⟨_, _, rfl⟩

/-- Whether neither a name nor a numeral goes on with the text. -/
def Detached (cs : List Char) : Prop := ∀ c ∈ cs.head?, isNamePart c = false ∧ c ≠ '.'

theorem Detached.isDigit_head (h : Detached tail) : ∀ c ∈ tail.head?, c.isDigit = false := by
  intro c hc
  have hn := (h c hc).1
  by_contra hd
  rw [isNamePart_of_isDigit (by simpa using hd)] at hn
  cases hn

theorem scanExponent_of_detached (h : Detached tail) : scanExponent tail = ([], tail) := by
  cases tail with
  | nil => rfl
  | cons c cs =>
    have hc : ¬(c = 'e' ∨ c = 'E') := by
      rintro (rfl | rfl)
      · exact absurd (h _ rfl).1 (by decide)
      · exact absurd (h _ rfl).1 (by decide)
    simp [scanExponent, hc]

theorem scanNumeral?_of_detached (h : numeral.Matches t) (ht : Detached tail) :
    scanNumeral? (t ++ tail) = some (t, tail) := by
  obtain ⟨m, x, rfl, hm, hx | rfl⟩ := h
  · have hs : scanMantissa? (m ++ (x ++ tail)) = some (m, x ++ tail) :=
      scanMantissa?_of_head hm (exponent_head hx)
    obtain ⟨htake, hdrop⟩ := run_of_head ht.isDigit_head
    rw [List.append_assoc, scanNumeral?_of_mantissa hs, scanExponent_exponent hx, htake, hdrop,
      List.append_nil]
  · have hs : scanMantissa? (m ++ tail) = some (m, tail) :=
      scanMantissa?_of_head hm fun c hc => ⟨ht.isDigit_head c hc, (ht c hc).2⟩
    rw [List.append_nil, scanNumeral?_of_mantissa hs, scanExponent_of_detached ht, List.append_nil]

theorem isNumeral_iff {s : String} : isNumeral s ↔ numeral.Matches s.toList := by
  unfold isNumeral
  constructor
  · intro h
    split at h
    · next n hn =>
      rw [← (scanNumeral?_append hn).1, List.append_nil]
      exact matches_of_scanNumeral? hn
    · cases h
  · intro h
    obtain ⟨more, rest, hs⟩ := scanNumeral?_extends h []
    have he := (scanNumeral?_append hs).1
    rw [List.append_assoc, List.append_cancel_left_eq, List.append_eq_nil_iff] at he
    rw [List.append_nil] at hs
    rw [hs, he.2]

theorem isVariable_iff {s : String} : isVariable s ↔ name.Matches s.toList := by
  constructor
  · intro h
    obtain ⟨c, cs, hs, hc, hcs⟩ := exists_of_isVariable h
    exact ⟨[c], cs, hs, ⟨c, rfl, hc⟩, hcs⟩
  · rintro ⟨_, cs, hs, ⟨c, rfl, hc⟩, hcs⟩
    have hall : cs.all isNamePart := List.all_eq_true.2 hcs
    rw [isVariable, hs]
    exact Bool.and_eq_true_iff.2 ⟨hc, hall⟩

end Numerals

section Recognition

variable {c : Char} {t tail cs rest n : List Char} {v s : String}

/-- What a token can be, if it can be more than a part of a text that makes no sense. -/
inductive TokenKind where
  | parenthesis
  | operator
  | name
  | numeral

def TokenKind.Holds : TokenKind → String → Prop
  | parenthesis, t => t = "(" ∨ t = ")"
  | operator, t => ∃ o : Operator, t = String.singleton o.symbol
  | name, t => isVariable t
  | numeral, t => isNumeral t

def Recognised (t : String) : Prop := ∃ k : TokenKind, k.Holds t

/-- Whether a token is a symbol, which no other token goes past. -/
def Symbolic (t : String) : Prop := ∃ c, t = String.singleton c ∧ isSymbol c

theorem Symbolic.recognised (h : Symbolic s) : Recognised s := by
  obtain ⟨c, rfl, hc⟩ := h
  rcases isSymbol_iff.1 hc with rfl | rfl | rfl | rfl | rfl | rfl
  · exact ⟨.parenthesis, .inl rfl⟩
  · exact ⟨.parenthesis, .inr rfl⟩
  · exact ⟨.operator, .add, rfl⟩
  · exact ⟨.operator, .sub, rfl⟩
  · exact ⟨.operator, .mul, rfl⟩
  · exact ⟨.operator, .div, rfl⟩

theorem Recognised.cases (h : Recognised s) : Symbolic s ∨ isVariable s ∨ isNumeral s := by
  obtain ⟨k, hk⟩ := h
  cases k with
  | parenthesis =>
    rcases hk with rfl | rfl
    · exact .inl ⟨'(', rfl, rfl⟩
    · exact .inl ⟨')', rfl, rfl⟩
  | operator =>
    obtain ⟨o, rfl⟩ := hk
    exact .inl ⟨o.symbol, rfl, by cases o <;> rfl⟩
  | name => exact .inr (.inl hk)
  | numeral => exact .inr (.inr hk)

/-- In front of a text a numeral is not taken for something else. -/
theorem scanToken?_numeral (h : numeral.Matches t) :
    scanToken? (t ++ tail) = scanNumeral? (t ++ tail) := by
  have hn : isNumeral (String.ofList t) := isNumeral_iff.2 (by rwa [String.toList_ofList])
  obtain ⟨c, cs, ht, hc⟩ := exists_of_isNumeral hn
  obtain rfl : t = c :: cs := by rwa [String.toList_ofList] at ht
  have hs : isSymbol c = false ∧ isNameStart c = false := by
    rcases hc with hd | rfl
    · exact ⟨isSymbol_eq_false_of_isDigit hd, isNameStart_eq_false_of_isDigit hd⟩
    · decide
  rw [List.cons_append, scanToken?, hs.1, hs.2]
  rfl

/-- A name goes on as far as it can. -/
theorem scanToken?_name (h : isVariable v) : scanToken? (v.toList ++ tail) =
    some (v.toList ++ tail.takeWhile isNamePart, tail.dropWhile isNamePart) := by
  obtain ⟨c, cs, hv, hc, hcs⟩ := exists_of_isVariable h
  rw [hv, List.cons_append, scanToken?, isSymbol_eq_false_of_isNameStart hc, hc,
    List.takeWhile_append_of_pos hcs, List.dropWhile_append_of_pos hcs]
  rfl

theorem recognised_of_scanToken? (h : scanToken? cs = some (n, rest)) :
    Recognised (String.ofList n) := by
  unfold scanToken? at h
  split at h
  · cases h
  · next c cs =>
    split at h
    · next hc =>
      cases h
      exact Symbolic.recognised ⟨c, rfl, hc⟩
    split at h
    · next hc =>
      cases h
      refine ⟨.name, isVariable_iff.2 ⟨[c], cs.takeWhile isNamePart, ?_, ⟨c, rfl, hc⟩, ?_⟩⟩
      · rw [String.toList_ofList]
        rfl
      · exact fun d hd => List.mem_takeWhile_imp hd
    · exact ⟨.numeral, isNumeral_iff.2 (by simpa using matches_of_scanNumeral? h)⟩

theorem Recognised.scanToken? (h : Recognised s) (tail : List Char) :
    ∃ more rest, scanToken? (s.toList ++ tail) = some (s.toList ++ more, rest) := by
  rcases h.cases with ⟨c, rfl, hc⟩ | hv | hn
  · rw [String.toList_singleton]
    exact ⟨[], tail, scanToken?_symbol hc⟩
  · exact ⟨_, _, scanToken?_name hv⟩
  · obtain ⟨more, rest, hs⟩ := scanNumeral?_extends (isNumeral_iff.1 hn) tail
    exact ⟨more, rest, (scanToken?_numeral (isNumeral_iff.1 hn)).trans hs⟩

/-- A recognised token is found as it is if nothing that could belong to it follows. -/
theorem Recognised.scanToken?_of_detached (h : Recognised s) (ht : Detached tail) :
    FormulaSheet.scanToken? (s.toList ++ tail) = some (s.toList, tail) := by
  rcases h.cases with ⟨c, rfl, hc⟩ | hv | hn
  · rw [String.toList_singleton]
    exact scanToken?_symbol hc
  · obtain ⟨htake, hdrop⟩ := run_of_head fun c hc => (ht c hc).1
    rw [scanToken?_name hv, htake, hdrop, List.append_nil]
  · rw [scanToken?_numeral (isNumeral_iff.1 hn), scanNumeral?_of_detached (isNumeral_iff.1 hn) ht]

end Recognition

end FormulaSheet
