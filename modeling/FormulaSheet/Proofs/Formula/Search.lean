import FormulaSheet.Proofs.Formula.LongestMatch

namespace FormulaSheet

open Pattern

/-- The first place of a text where a search finds the pattern: the text before, what is found and
the text after it. -/
def Pattern.find? (a : Pattern) : List Char → Option (List Char × List Char × List Char)
  | [] => (a.first? []).map fun (found, rest) => ([], found, rest)
  | c :: cs =>
    match a.first? (c :: cs) with
    | some (found, rest) => some ([], found, rest)
    | none => (a.find? cs).map fun (gap, found, rest) => (c :: gap, found, rest)

/-- What repeated searches yield until the text is used up: all that they find but blanks, and what
stands before and behind. -/
inductive Yields : List Char → List String → Prop
  | finish : Yields [] []
  | tail {cs : List Char} : cs ≠ [] → token.find? cs = none → Yields cs [String.ofList cs]
  | gap {cs gap found rest : List Char} {ts : List String} :
    token.find? cs = some (gap, found, rest) → gap ≠ [] → Yields (found ++ rest) ts →
    Yields cs (String.ofList gap :: ts)
  | blanks {cs found rest : List Char} {ts : List String} :
    token.find? cs = some ([], found, rest) → found.all isBlank → Yields rest ts → Yields cs ts
  | found {cs found rest : List Char} {ts : List String} :
    token.find? cs = some ([], found, rest) → ¬found.all isBlank → Yields rest ts →
    Yields cs (String.ofList found :: ts)

section Searching

variable {c : Char} {cs rest found u : List Char} {a : Pattern} {ts : List String}

theorem find?_of_first? (h : a.first? cs = some (found, rest)) :
    a.find? cs = some ([], found, rest) := by
  cases cs with
  | nil => rw [Pattern.find?, h, Option.map_some]
  | cons c cs => rw [Pattern.find?, h]

theorem starts_iff_first? : Starts cs ↔ (token.first? cs).isSome := by
  rw [starts_iff]
  cases cs with
  | nil =>
    have hnone : token.first? [] = none := rfl
    simp [hnone, scanToken?]
  | cons c cs =>
    by_cases hb : isBlank c
    · simp [hb, first?_blank hb]
    · simp [hb, first?_token (by simpa using hb)]

/-- A search passes all places where nothing starts. -/
theorem find?_append (h : Unbroken (u ++ rest) u.length) : token.find? (u ++ rest) =
    (token.find? rest).map fun (gap, found, rest) => (u ++ gap, found, rest) := by
  induction u with
  | nil => simp
  | cons c u ih =>
    have hnone : token.first? (c :: (u ++ rest)) = none := by
      have hstart := h 0 (Nat.zero_lt_succ _)
      rw [starts_iff_first?, Option.not_isSome_iff_eq_none] at hstart
      exact hstart
    have hu : Unbroken (u ++ rest) u.length := fun i hi => h (i + 1) (Nat.succ_lt_succ hi)
    rw [List.cons_append, Pattern.find?, hnone]
    dsimp only
    rw [ih hu, Option.map_map]
    rfl

/-- Blanks in front are found together. -/
theorem Yields.dropWhile (h : Yields cs ts) : Yields (cs.dropWhile isBlank) ts := by
  cases cs with
  | nil => exact h
  | cons c cs =>
    by_cases hb : isBlank c
    · have hfind : token.find? (c :: cs) =
          some ([], c :: cs.takeWhile isBlank, cs.dropWhile isBlank) :=
        find?_of_first? (first?_blank hb)
      have hall : (c :: cs.takeWhile isBlank).all isBlank := by simp [hb]
      rw [List.dropWhile_cons_of_pos hb]
      cases h with
      | tail _ hf => simp [hfind] at hf
      | gap hf hgap _ => simp_all
      | blanks hf _ h =>
        obtain ⟨rfl, rfl⟩ : _ ∧ _ := by simpa [hfind] using hf
        exact h
      | found hf hblanks _ =>
        obtain ⟨rfl, rfl⟩ : _ ∧ _ := by simpa [hfind] using hf
        exact absurd hall hblanks
    · rwa [List.dropWhile_cons_of_neg hb]

theorem Yields.blank (hb : isBlank c) (h : Yields cs ts) : Yields (c :: cs) ts := by
  refine .blanks (find?_of_first? (first?_blank hb)) ?_ h.dropWhile
  simp [hb]

theorem Yields.token {n : List Char} (hb : isBlank c = false)
    (ht : scanToken? (c :: cs) = some (n, rest)) (h : Yields rest ts) :
    Yields (c :: cs) (String.ofList n :: ts) := by
  refine .found (find?_of_first? ((first?_token hb).trans ht)) ?_ h
  obtain ⟨he, hn⟩ := scanToken?_append ht
  obtain ⟨d, n, rfl⟩ := List.exists_cons_of_ne_nil hn
  obtain rfl : d = c := (List.cons.inj he).1
  simp [hb]

theorem Yields.stray (hu : Unbroken (u ++ rest) u.length) (hn : u ≠ [])
    (hrest : rest = [] ∨ Starts rest) (h : Yields rest ts) :
    Yields (u ++ rest) (String.ofList u :: ts) := by
  rcases hrest with rfl | hrest
  · have hfind : Pattern.token.find? (u ++ []) = none := by
      rw [find?_append hu]
      rfl
    obtain rfl : ts = [] := by
      cases h with
      | finish => rfl
      | tail hcs _ => exact absurd rfl hcs
      | gap hf _ _ => cases hf
      | blanks hf _ _ => cases hf
      | found hf _ _ => cases hf
    rw [List.append_nil] at hfind ⊢
    exact .tail hn hfind
  · obtain ⟨⟨found, rest'⟩, hf⟩ := Option.isSome_iff_exists.1 (starts_iff_first?.1 hrest)
    refine .gap ?_ hn ((first?_append hf).symm ▸ h)
    rw [find?_append hu, find?_of_first? hf, Option.map_some]
    dsimp only
    rw [List.append_nil]

theorem yields_scanFrom (acc : List (List Char)) (cs : List Char) :
    ∃ ts, Yields cs ts ∧ scanFrom acc cs = acc.reverse ++ ts.map String.toList := by
  fun_induction scanFrom acc cs with
  | case1 acc => exact ⟨[], .finish, by simp⟩
  | case2 acc c cs hb ih =>
    obtain ⟨ts, hts, hs⟩ := ih
    exact ⟨ts, hts.blank hb, hs⟩
  | case3 acc c cs hb n rest ht ih =>
    obtain ⟨ts, hts, hs⟩ := ih
    exact ⟨_, hts.token (by simpa using hb) ht, by simp [hs]⟩
  | case4 acc c cs hb ht ih =>
    obtain ⟨ts, hts, hs⟩ := ih
    obtain ⟨u, rest, hstray, he, hn, hu, hrest⟩ := exists_stray (by simpa using hb) ht
    rw [he] at hu ⊢
    rw [hstray] at hts hs ⊢
    exact ⟨_, hts.stray hu hn hrest, by simp [hs]⟩

/-- The scanner finds what repeated searches find. -/
theorem yields_tokenize (source : String) : Yields source.toList (tokenize source) := by
  obtain ⟨ts, hts, hs⟩ := yields_scanFrom [] source.toList
  have ht : tokenize source = ts := by
    rw [tokenize, hs]
    simp [Function.comp_def]
  rwa [ht]

end Searching

section Characters

variable {c : Char} {cs t : List Char} {a : Pattern} {q : Char → Bool} {ps : List Placed}

def Pattern.Within (q : Char → Bool) : Pattern → Prop
  | one p | run p => ∀ c, p c → q c
  | both a b | either a b => a.Within q ∧ b.Within q
  | optional a => a.Within q

theorem Pattern.Matches.within (h : a.Matches t) (ha : a.Within q) : ∀ c ∈ t, q c := by
  induction a generalizing t with
  | one p =>
    obtain ⟨c, rfl, hc⟩ := h
    simpa using ha c hc
  | run p => exact fun c hc => ha c (h c hc)
  | both a b iha ihb =>
    obtain ⟨u, v, rfl, hu, hv⟩ := h
    intro c hc
    exact (List.mem_append.1 hc).elim (iha hu ha.1 c) (ihb hv ha.2 c)
  | either a b iha ihb => exact h.elim (fun h => iha h ha.1) fun h => ihb h ha.2
  | optional a ih =>
    rcases h with h | rfl
    · exact ih h ha
    · simp

theorem within_numeral : numeral.Within fun c => !isBlank c := by
  have hdigit : ∀ c : Char, c.isDigit → !isBlank c := fun c hc => by
    simp [isBlank_eq_false_of_isNamePart (isNamePart_of_isDigit hc)]
  have hpoint : ∀ c : Char, (c == '.') = true → !isBlank c := by
    intro c hc
    obtain rfl : c = '.' := by simpa using hc
    decide
  have hletter : ∀ c : Char, (c == 'e' || c == 'E') = true → !isBlank c := by
    intro c hc
    have hc : c = 'e' ∨ c = 'E' := by simpa using hc
    rcases hc with rfl | rfl <;> decide
  have hsign : ∀ c : Char, (c == '+' || c == '-') = true → !isBlank c := by
    intro c hc
    have hc : c = '+' ∨ c = '-' := by simpa using hc
    rcases hc with rfl | rfl <;> decide
  exact ⟨⟨⟨⟨hdigit, hdigit⟩, hpoint, hdigit⟩, ⟨hdigit, hpoint, hdigit, hdigit⟩, hdigit, hdigit⟩,
    hletter, hsign, hdigit, hdigit⟩

theorem Recognised.isBlank_eq_false {t : String} (h : Recognised t) :
    ∀ c ∈ t.toList, isBlank c = false := by
  rcases h.cases with ⟨d, rfl, hd⟩ | hv | hn
  · simpa using isBlank_eq_false_of_isSymbol hd
  · obtain ⟨d, cs, ht, hd, hcs⟩ := exists_of_isVariable hv
    rw [ht, List.forall_mem_cons]
    exact ⟨isBlank_eq_false_of_isNamePart (isNamePart_of_isNameStart hd),
      fun c hc => isBlank_eq_false_of_isNamePart (hcs c hc)⟩
  · intro c hc
    simpa using (isNumeral_iff.1 hn).within within_numeral c hc

theorem Stray.isBlank_eq_false {t : String} (h : Stray t) : ∀ c ∈ t.toList, isBlank c = false := by
  intro c hc
  by_contra hb
  obtain ⟨s, u, he⟩ := List.append_of_mem hc
  have hlen : s.length < t.length := by
    rw [← String.length_toList, he]
    simp
  refine h.2 s.length hlen (.inl ⟨c, ?_, by simpa using hb⟩)
  rw [he, List.drop_left]
  rfl

theorem Leads.isBlank_eq_false {t : String} {rest : List Char} (h : Leads (t.toList ++ rest) t)
    (ht : t ≠ "") : ∀ c ∈ t.toList, isBlank c = false :=
  (h.stray_or ht).elim Stray.isBlank_eq_false Recognised.isBlank_eq_false

theorem Cut.isBlank_eq_false (h : Cut cs ps) :
    ∀ p ∈ ps, p.token ≠ "" ∧ ∀ c ∈ p.token.toList, isBlank c = false := by
  induction h with
  | done => simp
  | token hb ht hl h ih => exact List.forall_mem_cons.2 ⟨⟨ht, hl.isBlank_eq_false ht⟩, ih⟩

/-- The blanks that are skipped are all blanks of the text. -/
theorem Cut.flatMap_token (h : Cut cs ps) :
    ps.flatMap (fun p => p.token.toList) = cs.filter fun c => !isBlank c := by
  induction h with
  | done hcs =>
    rw [List.flatMap_nil, eq_comm, List.filter_eq_nil_iff]
    simpa using hcs
  | @token blanks rest t ps hb ht hl h ih =>
    have hblanks : blanks.filter (fun c => !isBlank c) = [] := by
      rw [List.filter_eq_nil_iff]
      simpa using hb
    have htoken : t.toList.filter (fun c => !isBlank c) = t.toList := by
      rw [List.filter_eq_self]
      simpa using hl.isBlank_eq_false ht
    rw [List.flatMap_cons, ih, List.filter_append, List.filter_append, hblanks, htoken,
      List.nil_append]

end Characters

/-- The search for tokens comes to an end, and what it yields is the text without its blanks. -/
theorem join_tokenize (source : String) : Yields source.toList (tokenize source) ∧
    (∀ t ∈ tokenize source, t ≠ "" ∧ ∀ c ∈ t.toList, isBlank c = false) ∧
    String.join (tokenize source) = String.ofList (source.toList.filter fun c => !isBlank c) := by
  obtain ⟨ps, hps, ht⟩ := exists_cut source
  refine ⟨yields_tokenize source, ?_, ?_⟩
  · rw [ht, List.forall_mem_map]
    exact hps.isBlank_eq_false
  · rw [ht, ← hps.flatMap_token, ← String.toList_inj, String.toList_join, String.toList_ofList,
      List.flatMap_map]

end FormulaSheet
