import FormulaSheet.Proofs.Formula.Scanning

namespace FormulaSheet

/-- A pattern of characters. A search prefers the first of two alternatives, and a long run to a
short one. -/
inductive Pattern where
  | one (p : Char → Bool)
  | run (p : Char → Bool)
  | both (first second : Pattern)
  | either (preferred other : Pattern)
  | optional (a : Pattern)

def afterRun (p : Char → Bool) : List Char → List (List Char)
  | [] => [[]]
  | c :: cs => if p c then afterRun p cs ++ [c :: cs] else [c :: cs]

namespace Pattern

def Matches : Pattern → List Char → Prop
  | one p, t => ∃ c, t = [c] ∧ p c
  | run p, t => ∀ c ∈ t, p c
  | both a b, t => ∃ u v, t = u ++ v ∧ a.Matches u ∧ b.Matches v
  | either a b, t => a.Matches t ∨ b.Matches t
  | optional a, t => a.Matches t ∨ t = []

/-- What is left of a text by each way to match its beginning, in the order in which a search tries
them. -/
def rests : Pattern → List Char → List (List Char)
  | one _, [] => []
  | one p, c :: cs => if p c then [cs] else []
  | run p, cs => afterRun p cs
  | both a b, cs => (a.rests cs).flatMap b.rests
  | either a b, cs => a.rests cs ++ b.rests cs
  | optional a, cs => a.rests cs ++ [cs]

def first? (a : Pattern) (cs : List Char) : Option (List Char × List Char) :=
  (a.rests cs).head?.map fun rest => (cs.take (cs.length - rest.length), rest)

def many (p : Char → Bool) : Pattern := both (one p) (run p)

def mantissa : Pattern :=
  either (both (many Char.isDigit) (both (one (· == '.')) (run Char.isDigit)))
    (either (both (run Char.isDigit) (both (one (· == '.')) (many Char.isDigit)))
      (many Char.isDigit))

def exponent : Pattern :=
  both (one fun c => c == 'e' || c == 'E')
    (both (optional (one fun c => c == '+' || c == '-')) (many Char.isDigit))

def numeral : Pattern := both mantissa (optional exponent)

def name : Pattern := both (one isNameStart) (run isNamePart)

/-- What a text is searched for: symbols, variables, numerals and blanks. -/
def token : Pattern := either (one isSymbol) (either name (either numeral (many isBlank)))

end Pattern

section Search

variable {p : Char → Bool} {c : Char} {cs rest t : List Char} {a b : Pattern}

theorem mem_afterRun_iff : rest ∈ afterRun p cs ↔ ∃ t, (∀ c ∈ t, p c) ∧ cs = t ++ rest := by
  induction cs with
  | nil => simp [afterRun]
  | cons c cs ih =>
    have hstop : rest = c :: cs ↔ ∃ t, t = [] ∧ c :: cs = t ++ rest := by simp [eq_comm]
    rw [afterRun]
    split
    · next hc =>
      rw [List.mem_append, ih, List.mem_singleton, hstop]
      constructor
      · rintro (⟨t, ht, rfl⟩ | ⟨t, rfl, he⟩)
        · exact ⟨c :: t, List.forall_mem_cons.2 ⟨hc, ht⟩, rfl⟩
        · exact ⟨[], by simp, he⟩
      · rintro ⟨_ | ⟨d, t⟩, ht, he⟩
        · exact .inr ⟨[], rfl, he⟩
        · obtain ⟨rfl, rfl⟩ := List.cons.inj he
          exact .inl ⟨t, (List.forall_mem_cons.1 ht).2, rfl⟩
    · next hc =>
      rw [List.mem_singleton, hstop]
      constructor
      · rintro ⟨t, rfl, he⟩
        exact ⟨[], by simp, he⟩
      · rintro ⟨_ | ⟨d, t⟩, ht, he⟩
        · exact ⟨[], rfl, he⟩
        · obtain ⟨rfl, rfl⟩ := List.cons.inj he
          exact absurd (ht c List.mem_cons_self) hc

/-- A search tries all ways to match. -/
theorem Pattern.mem_rests_iff : rest ∈ a.rests cs ↔ ∃ t, a.Matches t ∧ cs = t ++ rest := by
  induction a generalizing cs rest with
  | one p =>
    cases cs with
    | nil => simp [rests, Matches]
    | cons c cs =>
      by_cases hc : p c
      · simpa [rests, Matches, hc] using eq_comm
      · simp [rests, Matches, hc]
  | run p => exact mem_afterRun_iff
  | both a b iha ihb =>
    simp only [rests, Matches, List.mem_flatMap, iha, ihb]
    constructor
    · rintro ⟨_, ⟨u, hu, rfl⟩, v, hv, rfl⟩
      exact ⟨u ++ v, ⟨u, v, rfl, hu, hv⟩, (List.append_assoc ..).symm⟩
    · rintro ⟨_, ⟨u, v, rfl, hu, hv⟩, rfl⟩
      exact ⟨v ++ rest, ⟨u, hu, List.append_assoc ..⟩, v, hv, rfl⟩
  | either a b iha ihb =>
    simp only [rests, Matches, List.mem_append, iha, ihb, or_and_right, exists_or]
  | optional a ih =>
    simp only [rests, Matches, List.mem_append, ih, or_and_right, exists_or, List.mem_singleton,
      exists_eq_left, List.nil_append, eq_comm]

theorem Pattern.first?_append (h : a.first? cs = some (t, rest)) : t ++ rest = cs := by
  obtain ⟨r, hr, he⟩ := Option.map_eq_some_iff.1 h
  obtain ⟨u, -, rfl⟩ := mem_rests_iff.1 (List.mem_of_head? hr)
  simp only [Prod.mk.injEq] at he
  obtain ⟨rfl, rfl⟩ := he
  simp

theorem head?_afterRun : (afterRun p cs).head? = some (cs.dropWhile p) := by
  induction cs with
  | nil => rfl
  | cons c cs ih =>
    rw [afterRun]
    split
    · next hc => rw [List.head?_append, ih, List.dropWhile_cons_of_pos hc, Option.some_or]
    · next hc => rw [List.dropWhile_cons_of_neg hc, List.head?_cons]

/-- Where a run cannot be followed by more of the same, only the longest one counts. -/
theorem flatMap_afterRun {f : List Char → List (List Char)}
    (h : ∀ c cs, p c → f (c :: cs) = []) : (afterRun p cs).flatMap f = f (cs.dropWhile p) := by
  induction cs with
  | nil => simp [afterRun]
  | cons c cs ih =>
    rw [afterRun]
    split
    · next hc =>
      rw [List.flatMap_append, ih, List.dropWhile_cons_of_pos hc]
      simp [h c cs hc]
    · next hc => simp [hc]

theorem Pattern.head?_many : ((many p).rests cs).head? =
    if cs.takeWhile p = [] then none else some (cs.dropWhile p) := by
  cases cs with
  | nil => rfl
  | cons c cs => by_cases hc : p c <;> simp [many, rests, hc, head?_afterRun]

theorem Pattern.flatMap_many {f : List Char → List (List Char)}
    (h : ∀ c cs, p c → f (c :: cs) = []) : ((many p).rests cs).flatMap f =
      if cs.takeWhile p = [] then [] else f (cs.dropWhile p) := by
  cases cs with
  | nil => rfl
  | cons c cs => by_cases hc : p c <;> simp [many, rests, hc, flatMap_afterRun h]

theorem Pattern.head?_either :
    ((either a b).rests cs).head? = (a.rests cs).head?.or (b.rests cs).head? :=
  List.head?_append

end Search

section Agreement

open Pattern

variable {c : Char} {cs rest t : List Char}

/-- A point does not stand where a digit does. -/
theorem rests_point (b : Pattern) : ∀ c cs, c.isDigit →
    (both (one (· == '.')) b).rests (c :: cs) = [] := by
  intro c cs hc
  have hp : c ≠ '.' := by
    rintro rfl
    cases hc
  simp [rests, hp]

theorem head?_mantissa : (mantissa.rests cs).head? = (scanMantissa? cs).map Prod.snd := by
  have hleft : (both (many Char.isDigit) (both (one (· == '.')) (run Char.isDigit))).rests cs =
      if cs.takeWhile Char.isDigit = [] then []
      else (both (one (· == '.')) (run Char.isDigit)).rests (cs.dropWhile Char.isDigit) :=
    flatMap_many (rests_point _)
  have hright : (both (run Char.isDigit) (both (one (· == '.')) (many Char.isDigit))).rests cs =
      (both (one (· == '.')) (many Char.isDigit)).rests (cs.dropWhile Char.isDigit) :=
    flatMap_afterRun (rests_point _)
  rw [mantissa, head?_either, hleft, head?_either, hright, head?_many, scanMantissa?]
  generalize cs.takeWhile Char.isDigit = whole
  cases cs.dropWhile Char.isDigit with
  | nil => cases whole <;> simp [rests]
  | cons c rest =>
    by_cases hc : c = '.'
    · subst hc
      cases whole with
      | nil => by_cases hd : rest.takeWhile Char.isDigit = [] <;> simp [rests, head?_many, hd]
      | cons d whole => simp [rests, head?_afterRun]
    · cases whole <;> simp [rests, hc]

theorem head?_signed :
    ((both (optional (one fun c => c == '+' || c == '-')) (many Char.isDigit)).rests cs).head? =
      if (splitSign cs).2.takeWhile Char.isDigit = [] then none
      else some ((splitSign cs).2.dropWhile Char.isDigit) := by
  unfold splitSign
  split
  · next cs =>
    have hs : (many Char.isDigit).rests ('+' :: cs) = [] := by simp [many, rests]
    simp [rests, hs, head?_many]
  · next cs =>
    have hs : (many Char.isDigit).rests ('-' :: cs) = [] := by simp [many, rests]
    simp [rests, hs, head?_many]
  · next hplus hminus =>
    cases cs with
    | nil => rfl
    | cons c cs =>
      have hp : c ≠ '+' := fun h => hplus cs (by rw [h])
      have hm : c ≠ '-' := fun h => hminus cs (by rw [h])
      simp [rests, hp, hm, head?_many]

theorem head?_exponent : ((optional exponent).rests cs).head? = some (scanExponent cs).2 := by
  cases cs with
  | nil => rfl
  | cons c cs =>
    rw [rests, List.head?_append, exponent, rests, rests]
    by_cases hc : c = 'e' ∨ c = 'E'
    · have hc' : (c == 'e' || c == 'E') = true := by simpa using hc
      rw [if_pos hc', List.flatMap_singleton, head?_signed, scanExponent]
      dsimp only
      by_cases hd : (splitSign cs).2.takeWhile Char.isDigit = []
      · rw [if_pos hd, if_neg (by simp [hd])]
        rfl
      · rw [if_neg hd, if_pos ⟨hc, hd⟩]
        rfl
    · have hc' : ¬(c == 'e' || c == 'E') = true := by simpa using hc
      rw [if_neg hc', scanExponent]
      dsimp only
      rw [if_neg fun h => hc h.1]
      rfl

theorem head?_numeral : (numeral.rests cs).head? = (scanNumeral? cs).map Prod.snd := by
  rw [numeral, rests, List.head?_flatMap, scanNumeral?, Option.map_map]
  have hm : (mantissa.rests cs).head? = _ := head?_mantissa
  cases hr : mantissa.rests cs with
  | nil =>
    rw [hr] at hm
    have hn : scanMantissa? cs = none := by simpa using hm.symm
    rw [hn]
    rfl
  | cons rest _ =>
    rw [hr] at hm
    obtain ⟨⟨m, r⟩, hs, rfl⟩ := Option.map_eq_some_iff.1 hm.symm
    rw [hs, List.findSome?_cons, head?_exponent]
    rfl

theorem head?_token : (token.rests (c :: cs)).head? =
    ((scanToken? (c :: cs)).map Prod.snd).or ((many isBlank).rests (c :: cs)).head? := by
  rw [token, head?_either, head?_either, head?_either, head?_numeral, scanToken?]
  by_cases hs : isSymbol c
  · simp [rests, hs]
  · by_cases hn : isNameStart c
    · simp [name, rests, hs, hn, head?_afterRun]
    · simp [name, rests, hs, hn]

/-- What a search finds in front of a text is a token, or all blanks up to the next one. -/
theorem first?_token (h : isBlank c = false) : token.first? (c :: cs) = scanToken? (c :: cs) := by
  have hb : (many isBlank).rests (c :: cs) = [] := by simp [many, rests, h]
  rw [first?, head?_token, hb, List.head?_nil, Option.or_none, Option.map_map]
  cases hs : scanToken? (c :: cs) with
  | none => rfl
  | some parts =>
    obtain ⟨t, rest⟩ := parts
    rw [← (scanToken?_append hs).1]
    simp

theorem first?_blank (h : isBlank c) :
    token.first? (c :: cs) = some (c :: cs.takeWhile isBlank, cs.dropWhile isBlank) := by
  have hcs := List.takeWhile_append_dropWhile (p := isBlank) (l := cs)
  rw [first?, head?_token, scanToken?_of_isBlank h, head?_many, List.takeWhile_cons_of_pos h,
    List.dropWhile_cons_of_pos h, if_neg (List.cons_ne_nil _ _)]
  generalize cs.takeWhile isBlank = blanks at hcs ⊢
  generalize cs.dropWhile isBlank = rest at hcs ⊢
  subst hcs
  simp [Nat.sub_add_comm]

end Agreement

end FormulaSheet
