import FormulaSheet.Proofs.Json.Strict

namespace FormulaSheet.Json

def units (c : Char) : List Nat :=
  if c.toNat < 0x10000 then [c.toNat]
  else [0xD800 + (c.toNat - 0x10000) / 0x400, 0xDC00 + (c.toNat - 0x10000) % 0x400]

def Piece.units : Piece → List Nat
  | .char c => Json.units c
  | .unit n => [n]

def Piece.Fits : Piece → Prop
  | .char _ => True
  | .unit n => n < 0x10000

/-- Whether the pieces of a string literal make up a text, as UTF-16. -/
def Denotes (ps : List Piece) (s : String) : Prop :=
  ps.flatMap Piece.units = s.toList.flatMap units

variable {c d : Char} {n k : Nat} {cs acc : List Char} {xs ys : List Nat} {ps : List Piece}
  {s : String}

section Units

theorem highSurrogate_iff : highSurrogate n ↔ 0xD800 ≤ n ∧ n < 0xDC00 := by
  simp [highSurrogate]

theorem lowSurrogate_iff : lowSurrogate n ↔ 0xDC00 ≤ n ∧ n < 0xE000 := by
  simp [lowSurrogate]

theorem toNat_range (c : Char) : c.toNat < 0xD800 ∨ 0xDFFF < c.toNat ∧ c.toNat < 0x110000 :=
  c.valid

theorem units_cases (c : Char) :
    (units c = [c.toNat] ∧ ¬highSurrogate c.toNat ∧ ¬lowSurrogate c.toNat) ∨
      ∃ n k, units c = [n, k] ∧ highSurrogate n ∧ lowSurrogate k ∧
        c.toNat = 0x10000 + (n - 0xD800) * 0x400 + (k - 0xDC00) := by
  have hc := toNat_range c
  simp only [highSurrogate_iff, lowSurrogate_iff, units]
  split
  · exact .inl ⟨rfl, by omega, by omega⟩
  · exact .inr ⟨_, _, rfl, by omega, by omega, by omega⟩

theorem toNat_ofNat (h : n.isValidChar) : (Char.ofNat n).toNat = n := by
  rw [Char.ofNat, dif_pos h]
  rfl

theorem units_ofNat (hn : n < 0x10000) (hh : ¬highSurrogate n) (hl : ¬lowSurrogate n) :
    units (Char.ofNat n) = [n] := by
  rw [highSurrogate_iff] at hh
  rw [lowSurrogate_iff] at hl
  have hv : n.isValidChar := by
    unfold Nat.isValidChar
    omega
  rw [units, toNat_ofNat hv, if_pos hn]

theorem units_ofNat_pair (hn : highSurrogate n) (hk : lowSurrogate k) :
    units (Char.ofNat (0x10000 + (n - 0xD800) * 0x400 + (k - 0xDC00))) = [n, k] := by
  rw [highSurrogate_iff] at hn
  rw [lowSurrogate_iff] at hk
  have hv : (0x10000 + (n - 0xD800) * 0x400 + (k - 0xDC00)).isValidChar := by
    unfold Nat.isValidChar
    omega
  have hhigh : 0xD800 + (0x10000 + (n - 0xD800) * 0x400 + (k - 0xDC00) - 0x10000) / 0x400 = n := by
    omega
  have hlow : 0xDC00 + (0x10000 + (n - 0xD800) * 0x400 + (k - 0xDC00) - 0x10000) % 0x400 = k := by
    omega
  rw [units, toNat_ofNat hv, if_neg (by omega), hhigh, hlow]

theorem units_ne_nil (c : Char) : units c ≠ [] := by
  unfold units
  split <;> simp

/-- No character is spelled like the beginning of another one. -/
theorem units_append_inj (h : units c ++ xs = units d ++ ys) : c = d ∧ xs = ys := by
  obtain ⟨hc, hch, -⟩ | ⟨n, k, hc, hn, hk, hcn⟩ := units_cases c <;>
    obtain ⟨hd, hdh, -⟩ | ⟨n', k', hd, hn', hk', hdn⟩ := units_cases d <;>
    rw [hc, hd] at h <;> simp only [List.cons_append, List.nil_append, List.cons.injEq] at h
  · exact ⟨Char.toNat_inj.1 h.1, h.2⟩
  · exact absurd (h.1 ▸ hn') hch
  · exact absurd (h.1 ▸ hn) hdh
  · obtain ⟨rfl, rfl, rfl⟩ := h
    exact ⟨Char.toNat_inj.1 (hcn.trans hdn.symm), rfl⟩

theorem units_append_eq_flatMap_iff :
    units c ++ xs = cs.flatMap units ↔ ∃ ds, cs = c :: ds ∧ xs = ds.flatMap units := by
  constructor
  · intro h
    cases cs with
    | nil => exact absurd (List.append_eq_nil_iff.1 h).1 (units_ne_nil c)
    | cons d ds =>
      obtain ⟨rfl, rfl⟩ := units_append_inj h
      exact ⟨ds, rfl, rfl⟩
  · rintro ⟨ds, rfl, rfl⟩
    rfl

/-- A character starts with no low surrogate. -/
theorem not_low_of_units_append (h : n :: xs = units c ++ ys) : ¬lowSurrogate n := by
  obtain ⟨hc, -, hl⟩ | ⟨n', k, hc, hn, -⟩ := units_cases c <;> rw [hc] at h <;> cases h
  · exact hl
  · rw [highSurrogate_iff] at hn
    rw [lowSurrogate_iff]
    omega

/-- In the units of a text, a high surrogate is followed by a low one. -/
theorem low_of_flatMap_units (h : n :: xs = cs.flatMap units) (hn : highSurrogate n) :
    ∃ k ys, xs = k :: ys ∧ lowSurrogate k := by
  cases cs with
  | nil => cases h
  | cons c cs =>
    rw [List.flatMap_cons] at h
    obtain ⟨hc, hh, -⟩ | ⟨n', k, hc, -, hk, -⟩ := units_cases c <;> rw [hc] at h <;> cases h
    · exact absurd hn hh
    · exact ⟨k, _, rfl, hk⟩

end Units

theorem charsFrom_char_iff {r : Option (List Char)} (hu : ps.flatMap Piece.units = units c ++ xs)
    (ih : r = some cs ↔ ∃ more, cs = (c :: acc).reverse ++ more ∧ xs = more.flatMap units) :
    r = some cs ↔
      ∃ more, cs = acc.reverse ++ more ∧ ps.flatMap Piece.units = more.flatMap units := by
  rw [ih, hu]
  simp only [units_append_eq_flatMap_iff, List.reverse_cons, List.append_assoc,
    List.singleton_append]
  constructor
  · rintro ⟨more, rfl, rfl⟩
    exact ⟨_, rfl, more, rfl, rfl⟩
  · rintro ⟨_, rfl, more, rfl, rfl⟩
    exact ⟨more, rfl, rfl⟩

theorem charsFrom_eq_some_iff (hb : ∀ p ∈ ps, p.Fits) :
    charsFrom acc ps = some cs ↔
      ∃ more, cs = acc.reverse ++ more ∧ ps.flatMap Piece.units = more.flatMap units := by
  fun_induction charsFrom acc ps with
  | case1 acc =>
    constructor
    · rintro ⟨⟩
      exact ⟨[], (List.append_nil _).symm, rfl⟩
    · rintro ⟨more, rfl, h⟩
      cases more with
      | nil => rw [List.append_nil]
      | cons c more => exact absurd (List.append_eq_nil_iff.1 h.symm).1 (units_ne_nil c)
  | case2 acc c ps ih => exact charsFrom_char_iff rfl (ih (List.forall_mem_cons.1 hb).2)
  | case3 acc n hn k ps hk ih =>
    refine charsFrom_char_iff ?_ (ih (List.forall_mem_cons.1 (List.forall_mem_cons.1 hb).2).2)
    rw [units_ofNat_pair hn hk]
    rfl
  | case4 acc n hn k ps hk =>
    refine iff_of_false nofun ?_
    rintro ⟨more, -, h⟩
    obtain ⟨k', ys, he, hk'⟩ := low_of_flatMap_units h hn
    cases he
    exact hk hk'
  | case5 acc n ps hn hps =>
    refine iff_of_false nofun ?_
    rintro ⟨more, -, h⟩
    obtain ⟨k, ys, he, hk⟩ := low_of_flatMap_units h hn
    cases ps with
    | nil => cases he
    | cons p ps =>
      cases p with
      | char c => exact not_low_of_units_append he.symm hk
      | unit k => exact hps k ps rfl
  | case6 acc n ps hn hl =>
    refine iff_of_false nofun ?_
    rintro ⟨more, -, h⟩
    cases more with
    | nil => cases h
    | cons c more => exact not_low_of_units_append h hl
  | case7 acc n ps hn hl ih =>
    refine charsFrom_char_iff ?_ (ih (List.forall_mem_cons.1 hb).2)
    rw [units_ofNat (hb _ List.mem_cons_self) hn hl]
    rfl

theorem text?_eq_some_iff (hb : ∀ p ∈ ps, p.Fits) :
    text? ps = some s ↔ Denotes ps s := by
  simp only [text?, Option.map_eq_some_iff, charsFrom_eq_some_iff hb, List.reverse_nil,
    List.nil_append, Denotes]
  constructor
  · rintro ⟨_, ⟨cs, rfl, h⟩, rfl⟩
    rw [h, String.toList_ofList]
  · exact fun h => ⟨s.toList, ⟨_, rfl, h⟩, String.ofList_toList⟩

section Fits

variable {l : Lexeme} {ls : List Lexeme} {t : Tree} {ts : List Tree} {text : String}
  {m : List Piece × Tree} {ms : List (List Piece × Tree)}

theorem Quoted.fits (h : Quoted cs ps) : ∀ p ∈ ps, p.Fits := by
  induction h with
  | nil => exact List.forall_mem_nil _
  | plain _ _ _ _ ih | escape _ _ ih => exact List.forall_mem_cons.2 ⟨trivial, ih⟩
  | unit ha hb hc hd _ ih =>
    refine List.forall_mem_cons.2 ⟨?_, ih⟩
    have := ha.1
    have := hb.1
    have := hc.1
    have := hd.1
    rw [Piece.Fits]
    omega

theorem Lexed.fits (h : Lexed ls cs) (hs : .string ps ∈ ls) : ∀ p ∈ ps, p.Fits := by
  induction h with
  | nil => cases hs
  | cons _ hw _ ih =>
    rcases List.mem_cons.1 hs with rfl | hs
    · cases hw with
      | mark hm => simpa using mark?_mem hm
      | string hq => exact hq.fits
    · exact ih hs

def Tree.Fits (t : Tree) : Prop := ∀ ps, .string ps ∈ t.lexemes → ∀ p ∈ ps, p.Fits

theorem fits_of_parse (h : parse text = some t) : t.Fits := fun _ => (lexed_of_parse h).fits

theorem Tree.Fits.string (h : (Tree.string ps).Fits) : ∀ p ∈ ps, p.Fits :=
  h ps (by rw [Tree.lexemes]; exact List.mem_singleton_self _)

theorem mem_itemLexemes (ht : t ∈ ts) (hl : l ∈ t.lexemes) : l ∈ itemLexemes ts := by
  induction ts with
  | nil => cases ht
  | cons u ts ih =>
    rw [itemLexemes]
    rcases List.mem_cons.1 ht with rfl | ht
    · simp [hl]
    · simp [ih ht]

theorem mem_memberLexemes (hm : m ∈ ms) (hl : l = .string m.1 ∨ l ∈ m.2.lexemes) :
    l ∈ memberLexemes ms := by
  induction ms with
  | nil => cases hm
  | cons n ms ih =>
    rw [memberLexemes]
    rcases List.mem_cons.1 hm with rfl | hm
    · rcases hl with rfl | hl
      · simp
      · simp [hl]
    · simp [ih hm]

theorem Tree.Fits.item (h : (Tree.array ts).Fits) (ht : t ∈ ts) : t.Fits := by
  intro ps hs
  have hmem := mem_itemLexemes ht hs
  cases ts with
  | nil => cases ht
  | cons u ts =>
    refine h ps ?_
    rw [itemLexemes] at hmem
    rw [Tree.lexemes]
    simpa using hmem

theorem Tree.Fits.member (h : (Tree.object ms).Fits) (hm : m ∈ ms) :
    (∀ p ∈ m.1, p.Fits) ∧ m.2.Fits := by
  have hall : ∀ ps, (.string ps = Lexeme.string m.1 ∨ .string ps ∈ m.2.lexemes) →
      ∀ p ∈ ps, p.Fits := by
    intro ps hs
    have hmem := mem_memberLexemes hm hs
    cases ms with
    | nil => cases hm
    | cons n ms =>
      refine h ps ?_
      rw [memberLexemes] at hmem
      rw [Tree.lexemes]
      simpa using hmem
  exact ⟨hall m.1 (.inl rfl), fun ps hs => hall ps (.inr hs)⟩

end Fits

end FormulaSheet.Json
