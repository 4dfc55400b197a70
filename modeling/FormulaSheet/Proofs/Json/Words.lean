import Mathlib
import FormulaSheet.Proofs.Json.Grammar
import FormulaSheet.Proofs.Json.Lexeme

namespace FormulaSheet.Json

variable {c e : Char} {n : Nat} {cs rest part : List Char} {acc ps : List Piece}

section Strings

theorem escaped?_eq_some_iff : escaped? e = some c ↔ (e, c) ∈ escapes := by
  unfold escaped? escapes
  split <;> simp_all [eq_comm]

theorem lt_of_hexDigit? (h : hexDigit? c = some n) : n < 16 ∧ c.toNat < 0x80 := by
  simp only [hexDigit?, Char.isDigit, Char.le_def, UInt32.le_iff_toNat_le, Char.toNat_val,
    Bool.and_eq_true, decide_eq_true_eq, Char.reduceToNat] at h
  split_ifs at h <;> rw [Option.some.injEq] at h <;> omega

theorem HexDigit.lt (h : HexDigit c n) : c.toNat < 0x80 := by
  obtain ⟨hn, h⟩ := h
  unfold Char.toLower at h
  split at h
  · next hc =>
    simp only [ge_iff_le, UInt32.le_iff_toNat_le, Char.toNat_val, Char.reduceToNat] at hc
    omega
  · rw [h]
    interval_cases n <;> decide

theorem hexDigit?_eq_some_iff : hexDigit? c = some n ↔ HexDigit c n := by
  have table : ∀ m < 0x80, ∀ n < 16,
      hexDigit? (Char.ofNat m) = some n ↔ (Char.ofNat m).toLower = Nat.digitChar n := by
    decide +kernel
  constructor
  · intro h
    obtain ⟨hn, hc⟩ := lt_of_hexDigit? h
    exact ⟨hn, by simpa [h] using table c.toNat hc n hn⟩
  · intro h
    simpa [h.2] using table c.toNat h.lt n h.1

theorem hexNumber?_eq_some_iff {a b c d : Char} : hexNumber? [a, b, c, d] = some n ↔
    ∃ i j k l, HexDigit a i ∧ HexDigit b j ∧ HexDigit c k ∧ HexDigit d l ∧
      i * 0x1000 + j * 0x100 + k * 0x10 + l = n := by
  simp only [hexNumber?, List.foldlM_cons, List.foldlM_nil, Option.bind_eq_bind,
    Option.bind_eq_some_iff, Option.map_eq_some_iff, hexDigit?_eq_some_iff, Option.pure_def]
  grind

theorem quoted_of_readString (h : readString acc cs = some (ps, rest)) :
    ∃ inside more, cs = inside ++ '"' :: rest ∧ ps = acc.reverse ++ more ∧ Quoted inside more := by
  fun_induction readString acc cs with
  | case1 | case4 | case6 | case7 => cases h
  | case2 acc cs =>
    cases h
    exact ⟨[], [], rfl, (List.append_nil _).symm, .nil⟩
  | case3 acc a b c d cs n hn ih =>
    obtain ⟨inside, more, rfl, rfl, hq⟩ := ih h
    obtain ⟨i, j, k, l, ha, hb, hc, hd, rfl⟩ := hexNumber?_eq_some_iff.1 hn
    exact ⟨_, _, rfl, by simp, .unit ha hb hc hd hq⟩
  | case5 acc e cs _ c hc ih =>
    obtain ⟨inside, more, rfl, rfl, hq⟩ := ih h
    exact ⟨_, _, rfl, by simp, .escape (escaped?_eq_some_iff.1 hc) hq⟩
  | case8 acc c cs hend _ _ hc ih =>
    obtain ⟨inside, more, rfl, rfl, hq⟩ := ih h
    obtain ⟨hlow, hslash⟩ := not_or.1 hc
    exact ⟨_, _, rfl, by simp, .plain (Nat.le_of_not_lt hlow) hend hslash hq⟩

theorem readString_of_quoted (h : Quoted cs ps) (acc : List Piece) (rest : List Char) :
    readString acc (cs ++ '"' :: rest) = some (acc.reverse ++ ps, rest) := by
  induction h generalizing acc with
  | nil => rw [List.nil_append, readString, List.append_nil]
  | plain hc hq hb _ ih =>
    rw [List.cons_append, readString, if_neg (not_or.2 ⟨Nat.not_lt_of_le hc, hb⟩), ih]
    · simp
    all_goals simp_all
  | escape he _ ih =>
    rw [← escaped?_eq_some_iff] at he
    rw [List.cons_append, List.cons_append, readString, he]
    · simp [ih]
    · rintro a b c d cs rfl
      cases he
  | unit ha hb hc hd _ ih =>
    have hn := hexNumber?_eq_some_iff.2 ⟨_, _, _, _, ha, hb, hc, hd, rfl⟩
    simp only [List.cons_append]
    rw [readString, hn]
    simp [ih]

end Strings

def Ends (cs : List Char) : Prop := ∀ c ∈ cs.head?, isSpace c ∨ (mark? c).isSome

section Numbers

variable {whole fraction exponent : List Char}

theorem digits_of_skipDigits (h : skipDigits cs = some rest) :
    ∃ ds, cs = ds ++ rest ∧ Digits ds := by
  unfold skipDigits at h
  split at h
  · cases h
  · next hd =>
    rw [Option.some.injEq] at h
    subst h
    exact ⟨_, List.takeWhile_append_dropWhile.symm, hd, fun c hc => List.mem_takeWhile_imp hc⟩

theorem skipDigits_append (h : Digits cs) (hr : ∀ c ∈ rest.head?, c.isDigit = false) :
    skipDigits (cs ++ rest) = some rest := by
  rw [skipDigits, takeWhile_run h.2 hr, dropWhile_run h.2 hr, if_neg h.1]

theorem Digits.exists_cons (h : Digits cs) : ∃ d ds, cs = d :: ds ∧ d.isDigit :=
  have ⟨d, ds, he⟩ := List.exists_cons_of_ne_nil h.1
  ⟨d, ds, he, h.2 d (by simp [he])⟩

theorem exists_sign (cs : List Char) : ∃ sign ∈ [[], ['+'], ['-']], cs = sign ++ skipSign cs := by
  cases cs with
  | nil => exact ⟨[], List.mem_cons_self, rfl⟩
  | cons c cs =>
    rw [skipSign]
    split
    · next hc => exact ⟨[c], by rcases hc with rfl | rfl <;> decide, rfl⟩
    · exact ⟨[], List.mem_cons_self, rfl⟩

theorem skipSign_append {sign : List Char} (hs : sign ∈ [[], ['+'], ['-']]) (h : Digits cs) :
    skipSign (sign ++ (cs ++ rest)) = cs ++ rest := by
  obtain ⟨d, ds, rfl, hd⟩ := h.exists_cons
  simp only [List.mem_cons, List.not_mem_nil, or_false] at hs
  obtain rfl | rfl | rfl := hs
  · rw [List.nil_append, List.cons_append, skipSign, if_neg]
    rintro (rfl | rfl) <;> cases hd
  · rfl
  · rfl

theorem exponent_of_skipExponent (h : skipExponent cs = some rest) :
    ∃ part, cs = part ++ rest ∧ ExponentPart part := by
  unfold skipExponent at h
  split at h
  · exact ⟨[], by simpa using h.symm, .none⟩
  · next c cs =>
    split at h
    · next hc =>
      obtain ⟨sign, hs, he⟩ := exists_sign cs
      obtain ⟨ds, hd, hds⟩ := digits_of_skipDigits h
      refine ⟨c :: (sign ++ ds), ?_, .digits hc hs hds⟩
      rw [List.cons_append, List.append_assoc, ← hd, ← he]
    · exact ⟨[], by simpa using h, .none⟩

theorem fraction_of_skipFraction (h : skipFraction cs = some rest) :
    ∃ part, cs = part ++ rest ∧ FractionPart part := by
  unfold skipFraction at h
  split at h
  · exact ⟨[], by simpa using h.symm, .none⟩
  · next c cs =>
    split at h
    · next hc =>
      obtain ⟨ds, rfl, hds⟩ := digits_of_skipDigits h
      exact ⟨'.' :: ds, by rw [hc, List.cons_append], .digits hds⟩
    · exact ⟨[], by simpa using h, .none⟩

theorem integer_of_skipInteger (h : skipInteger cs = some rest) :
    ∃ part, cs = part ++ rest ∧ IntegerPart part := by
  unfold skipInteger at h
  split at h
  · cases h
  · next c cs =>
    split at h
    · next hc => exact ⟨['0'], by rw [hc, Option.some_inj.1 h]; rfl, .zero⟩
    · next hc =>
      obtain ⟨ds, he, hds⟩ := digits_of_skipDigits h
      refine ⟨ds, he, .digits hds fun hz => hc ?_⟩
      have hh := congrArg List.head? he
      rw [List.head?_append, hz] at hh
      simpa using hh

theorem number_of_skipNumber (h : skipNumber cs = some rest) :
    ∃ w, cs = w ++ rest ∧ NumberText w := by
  unfold skipNumber at h
  split at h
  · cases h
  · next c cs =>
    simp only [Option.bind_eq_bind, Option.bind_eq_some_iff] at h
    obtain ⟨r, hw, r', hf, he⟩ := h
    obtain ⟨whole, hw, hwhole⟩ := integer_of_skipInteger hw
    obtain ⟨fraction, rfl, hfraction⟩ := fraction_of_skipFraction hf
    obtain ⟨exponent, rfl, hexponent⟩ := exponent_of_skipExponent he
    split at hw
    · next hc =>
      have hm : ['-'] ∈ [[], ['-']] := by decide
      exact ⟨_, by simp [hc, hw], .parts hm hwhole hfraction hexponent⟩
    · have hm : [] ∈ [[], ['-']] := List.mem_cons_self
      exact ⟨_, by simp [hw], .parts hm hwhole hfraction hexponent⟩

/-- No number goes on with a space or a mark, or starts with one. -/
theorem ne_of_ends_word (h : isSpace c ∨ (mark? c).isSome) :
    c.isDigit = false ∧ c ∉ ['.', 'e', 'E', '-'] := by
  have hc : c ∈ [' ', '\t', '\n', '\r', '[', ']', '{', '}', ',', ':'] := by
    unfold isSpace mark? at h
    split at h <;> simp_all [or_assoc]
  fin_cases hc <;> decide

theorem Ends.head (h : Ends rest) (hc : c ∈ rest.head?) :
    c.isDigit = false ∧ c ≠ '.' ∧ c ≠ 'e' ∧ c ≠ 'E' := by
  obtain ⟨hd, hn⟩ := ne_of_ends_word (h c hc)
  simp_all

theorem ExponentPart.head (h : ExponentPart part) (hr : Ends rest) (hc : c ∈ (part ++ rest).head?) :
    c.isDigit = false ∧ c ≠ '.' := by
  cases h with
  | none => exact ⟨(hr.head hc).1, (hr.head hc).2.1⟩
  | digits he =>
    cases hc
    rcases he with rfl | rfl <;> decide

theorem FractionPart.head (h : FractionPart part) (he : ExponentPart exponent) (hr : Ends rest)
    (hc : c ∈ (part ++ (exponent ++ rest)).head?) : c.isDigit = false := by
  cases h with
  | none => exact (he.head hr hc).1
  | digits =>
    cases hc
    rfl

theorem skipExponent_append (h : ExponentPart part) (hr : Ends rest) :
    skipExponent (part ++ rest) = some rest := by
  cases h with
  | none =>
    cases rest with
    | nil => rfl
    | cons c rest =>
      obtain ⟨-, -, he, he'⟩ := hr.head rfl
      rw [List.nil_append, skipExponent, if_neg (not_or.2 ⟨he, he'⟩)]
  | digits he hs hd =>
    rw [List.cons_append, List.append_assoc, skipExponent, if_pos he, skipSign_append hs hd]
    exact skipDigits_append hd fun c hc => (hr.head hc).1

theorem skipFraction_append (h : FractionPart part) (he : ExponentPart exponent) (hr : Ends rest) :
    skipFraction (part ++ (exponent ++ rest)) = some (exponent ++ rest) := by
  cases h with
  | none =>
    rw [List.nil_append, skipFraction.eq_def]
    split
    · next hn => rw [hn]
    · next c cs hn => rw [if_neg (he.head hr (by simp [hn])).2, hn]
  | digits hd =>
    rw [List.cons_append, skipFraction, if_pos rfl]
    exact skipDigits_append hd fun c hc => (he.head hr hc).1

theorem skipInteger_append (h : IntegerPart part) (hr : ∀ c ∈ rest.head?, c.isDigit = false) :
    skipInteger (part ++ rest) = some rest := by
  cases h with
  | zero => rfl
  | digits hd hz =>
    have hskip := skipDigits_append hd hr
    obtain ⟨d, ds, rfl, -⟩ := hd.exists_cons
    rw [List.cons_append, skipInteger, if_neg fun h => hz (congrArg some h)]
    exact hskip

theorem IntegerPart.exists_cons (h : IntegerPart cs) : ∃ d ds, cs = d :: ds ∧ d.isDigit := by
  cases h with
  | zero => exact ⟨'0', [], rfl, rfl⟩
  | digits hd => exact hd.exists_cons

theorem skipNumber_append (h : NumberText cs) (hr : Ends rest) :
    skipNumber (cs ++ rest) = some rest := by
  obtain ⟨hm, hw, hf, he⟩ := h
  have hinteger := skipInteger_append hw fun c hc => hf.head he hr hc
  obtain ⟨d, ds, rfl, hd⟩ := hw.exists_cons
  simp only [List.mem_cons, List.not_mem_nil, or_false] at hm
  obtain rfl | rfl := hm
  · have hsign : d ≠ '-' := by
      rintro rfl
      cases hd
    simp only [List.nil_append, List.cons_append, List.append_assoc] at hinteger ⊢
    rw [skipNumber, if_neg hsign, hinteger]
    simp [skipFraction_append hf he hr, skipExponent_append he hr]
  · simp only [List.nil_append, List.cons_append, List.append_assoc] at hinteger ⊢
    rw [skipNumber, if_pos rfl, hinteger]
    simp [skipFraction_append hf he hr, skipExponent_append he hr]

theorem NumberText.exists_cons (h : NumberText cs) :
    ∃ d ds, cs = d :: ds ∧ (d.isDigit ∨ d = '-') := by
  obtain ⟨hm, hw⟩ := h
  obtain ⟨d, ds, rfl, hd⟩ := hw.exists_cons
  simp only [List.mem_cons, List.not_mem_nil, or_false] at hm
  obtain rfl | rfl := hm
  · exact ⟨d, _, rfl, .inl hd⟩
  · exact ⟨'-', _, rfl, .inr rfl⟩

theorem readLexeme_number (hc : c.isDigit ∨ c = '-') :
    readLexeme (c :: cs) = (skipNumber (c :: cs)).map fun rest => (.number, rest) := by
  unfold readLexeme
  split
  case h_5 => rfl
  all_goals
    next he =>
      rw [(List.cons.inj he).1] at hc
      exact absurd hc (by decide)

end Numbers

end FormulaSheet.Json
