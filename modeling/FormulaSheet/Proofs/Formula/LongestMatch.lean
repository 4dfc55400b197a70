import FormulaSheet.Proofs.Formula.Spelling

namespace FormulaSheet

def Starts (cs : List Char) : Prop :=
  (∃ c ∈ cs.head?, isBlank c) ∨ ∃ t, Recognised t ∧ t.toList <+: cs

/-- Whether nothing starts at any of the first places of a text. -/
def Unbroken (cs : List Char) (n : Nat) : Prop := ∀ i < n, ¬Starts (cs.drop i)

/-- What is left to be a token of its own where no other stands. -/
def Stray (t : String) : Prop := t ≠ "" ∧ Unbroken t.toList t.length

def Longest (P : String → Prop) (cs : List Char) (t : String) : Prop :=
  (P t ∧ t.toList <+: cs) ∧ ∀ u, P u → u.toList <+: cs → u.length ≤ t.length

/-- The rule of the longest match: which token stands in front of a text that starts with no
blank. -/
def Leads (cs : List Char) (t : String) : Prop :=
  Longest Recognised cs t ∨
    (∀ u, Recognised u → ¬u.toList <+: cs) ∧ Longest (fun u => Unbroken cs u.length) cs t

structure Placed where
  blanks : List Char
  token : String

/-- Whether a text is cut by the rule of the longest match at each token. -/
inductive Cut : List Char → List Placed → Prop
  | done {cs : List Char} : (∀ c ∈ cs, isBlank c) → Cut cs []
  | token {blanks rest : List Char} {t : String} {ps : List Placed} : (∀ c ∈ blanks, isBlank c) →
    t ≠ "" → Leads (t.toList ++ rest) t → Cut rest ps →
    Cut (blanks ++ (t.toList ++ rest)) (⟨blanks, t⟩ :: ps)

section Leading

variable {c : Char} {cs rest n u : List Char} {t : String} {k k' : TokenKind}

theorem TokenKind.Holds.unique (h : k.Holds t) (h' : k'.Holds t) : k = k' := by
  have hsymbol : ∀ o : Operator, String.singleton o.symbol ≠ "(" ∧
      String.singleton o.symbol ≠ ")" := by
    intro o
    cases o <;> decide
  have hword : ∀ t, isNumeral t ∨ isVariable t →
      t ≠ "(" ∧ t ≠ ")" ∧ ∀ o : Operator, t ≠ String.singleton o.symbol := by
    intro t ht
    obtain ⟨hopen, hclose, ho⟩ := Token.no_symbol ht
    refine ⟨hopen, hclose, fun o he => ?_⟩
    rw [Operator.ofSymbol?_eq_some_iff.2 he] at ho
    cases ho
  have hboth : isVariable t → ¬isNumeral t := fun hv => by
    rw [Token.isNumeral_eq_false hv]
    exact Bool.false_ne_true
  cases k <;> cases k' <;> simp only [Holds] at h h' <;> grind

theorem starts_iff : Starts cs ↔ (∃ c ∈ cs.head?, isBlank c) ∨ (scanToken? cs).isSome := by
  refine or_congr Iff.rfl ⟨?_, fun h => ?_⟩
  · rintro ⟨t, ht, tail, rfl⟩
    obtain ⟨more, rest, hs⟩ := ht.scanToken? tail
    rw [hs, Option.isSome_some]
  · obtain ⟨⟨n, rest⟩, hs⟩ := Option.isSome_iff_exists.1 h
    refine ⟨String.ofList n, recognised_of_scanToken? hs, rest, ?_⟩
    rw [String.toList_ofList, (scanToken?_append hs).1]

/-- The scanner finds the longest recognised token. -/
theorem leads_token (h : scanToken? cs = some (n, rest)) : Leads cs (String.ofList n) := by
  refine .inl ⟨⟨recognised_of_scanToken? h, rest, ?_⟩, ?_⟩
  · rw [String.toList_ofList, (scanToken?_append h).1]
  · rintro u hu ⟨tail, rfl⟩
    obtain ⟨more, rest', hs⟩ := hu.scanToken? tail
    rw [hs, Option.some.injEq, Prod.mk.injEq] at h
    rw [← h.1]
    simp

theorem scanStray_unbroken (acc cs : List Char) : ∃ u rest,
    scanStray acc cs = (acc.reverse ++ u, rest) ∧ cs = u ++ rest ∧ Unbroken cs u.length ∧
      (rest = [] ∨ Starts rest) := by
  induction cs generalizing acc with
  | nil => exact ⟨[], [], by simp [scanStray], rfl, by simp [Unbroken], .inl rfl⟩
  | cons c cs ih =>
    have hstart : Starts (c :: cs) ↔ isBlank c ∨ (scanToken? (c :: cs)).isSome := by
      simp [starts_iff]
    rw [scanStray]
    split
    · next h => exact ⟨[], c :: cs, by simp, rfl, by simp [Unbroken], .inr (hstart.2 h)⟩
    · next h =>
      obtain ⟨u, rest, hs, rfl, hu, hrest⟩ := ih (c :: acc)
      refine ⟨c :: u, rest, by simp [hs], rfl, ?_, hrest⟩
      rintro (_ | i) hi
      · exact fun h' => h (hstart.1 h')
      · exact hu i (Nat.lt_of_succ_lt_succ hi)

theorem exists_stray (hb : isBlank c = false) (h : scanToken? (c :: cs) = none) :
    ∃ u rest, scanStray [c] cs = (u, rest) ∧ c :: cs = u ++ rest ∧ u ≠ [] ∧
      Unbroken (c :: cs) u.length ∧ (rest = [] ∨ Starts rest) := by
  obtain ⟨u, rest, hs, rfl, hu, hrest⟩ := scanStray_unbroken [c] cs
  refine ⟨c :: u, rest, hs, rfl, List.cons_ne_nil c u, ?_, hrest⟩
  rintro (_ | i) hi
  · simp [starts_iff, hb, h]
  · exact hu i (Nat.lt_of_succ_lt_succ hi)

/-- Where no token stands the scanner goes on until one does. -/
theorem leads_stray (hu : Unbroken (u ++ rest) u.length) (hn : u ≠ [])
    (hrest : rest = [] ∨ Starts rest) : Leads (u ++ rest) (String.ofList u) := by
  have hstart : ¬Starts (u ++ rest) := hu 0 (List.length_pos_iff.2 hn)
  refine .inr ⟨fun v hv hp => hstart (.inr ⟨v, hv, hp⟩), ⟨by simpa using hu, rest, by simp⟩, ?_⟩
  -- A longer one would go past a place where something starts.
  intro v hv hp
  rw [String.length_ofList]
  rcases hrest with rfl | hrest
  · rw [List.append_nil] at hp
    exact String.length_toList ▸ hp.length_le
  · by_contra hlong
    refine hv u.length (Nat.lt_of_not_le hlong) ?_
    rwa [List.drop_left]

theorem Leads.isBlank_head (h : Leads cs t) (ht : t ≠ "") : ∀ c ∈ cs.head?, isBlank c = false := by
  intro c hc
  by_contra hb
  have hb : isBlank c := by simpa using hb
  obtain ⟨cs, rfl⟩ := List.head?_eq_some_iff.1 hc
  rcases h with ⟨⟨hr, tail, he⟩, -⟩ | ⟨-, ⟨hu, -⟩, -⟩
  · obtain ⟨more, rest, hs⟩ := hr.scanToken? tail
    rw [he, scanToken?_of_isBlank hb] at hs
    cases hs
  · exact hu 0 (Nat.pos_of_ne_zero (by simpa using ht)) (.inl ⟨c, hc, hb⟩)

theorem Leads.exists_not_blank (h : Leads (t.toList ++ rest) t) (ht : t ≠ "") :
    ∃ c ∈ t.toList ++ rest, isBlank c = false := by
  obtain ⟨c, w, hw⟩ := List.exists_cons_of_ne_nil (l := t.toList) (by simpa using ht)
  exact ⟨c, by simp [hw], h.isBlank_head ht c (by simp [hw])⟩

theorem Longest.unique {P : String → Prop} {t' : String} (h : Longest P cs t)
    (h' : Longest P cs t') : t = t' := by
  have hlen : t.toList.length = t'.toList.length := by
    rw [String.length_toList, String.length_toList]
    exact Nat.le_antisymm (h'.2 t h.1.1 h.1.2) (h.2 t' h'.1.1 h'.1.2)
  obtain ⟨⟨-, hp⟩, -⟩ := h
  obtain ⟨⟨-, hp'⟩, -⟩ := h'
  exact String.toList_inj.1 ((List.prefix_of_prefix_length_le hp hp' hlen.le).eq_of_length hlen)

theorem Leads.unique {t' : String} (h : Leads cs t) (h' : Leads cs t') : t = t' := by
  rcases h with h | ⟨hn, h⟩ <;> rcases h' with h' | ⟨hn', h'⟩
  · exact h.unique h'
  · exact absurd h.1.2 (hn' t h.1.1)
  · exact absurd h'.1.2 (hn t' h'.1.1)
  · exact h.unique h'

end Leading

section Cutting

variable {c : Char} {cs rest : List Char} {t : String} {ps ps' : List Placed}

theorem Cut.blank (hc : isBlank c) (h : Cut cs ps) :
    ∃ ps', Cut (c :: cs) ps' ∧ ps'.map Placed.token = ps.map Placed.token := by
  cases h with
  | done hcs => exact ⟨[], .done (List.forall_mem_cons.2 ⟨hc, hcs⟩), rfl⟩
  | token hb ht hl h => exact ⟨_, .token (List.forall_mem_cons.2 ⟨hc, hb⟩) ht hl h, rfl⟩

theorem Cut.next {n : List Char} (hl : Leads (n ++ rest) (String.ofList n)) (hn : n ≠ [])
    (h : Cut rest ps) : Cut (n ++ rest) (⟨[], String.ofList n⟩ :: ps) := by
  have hblanks : ∀ c ∈ ([] : List Char), isBlank c := by simp
  have hne : String.ofList n ≠ "" := by simpa using hn
  have hc := Cut.token hblanks hne (by rwa [String.toList_ofList]) h
  rwa [List.nil_append, String.toList_ofList] at hc

theorem exists_cut_scanFrom (acc : List (List Char)) (cs : List Char) : ∃ ps, Cut cs ps ∧
    scanFrom acc cs = acc.reverse ++ (ps.map Placed.token).map String.toList := by
  fun_induction scanFrom acc cs with
  | case1 acc => exact ⟨[], .done (by simp), by simp⟩
  | case2 acc c cs hb ih =>
    obtain ⟨ps, hps, hs⟩ := ih
    obtain ⟨ps', hps', he⟩ := hps.blank hb
    exact ⟨ps', hps', by rw [hs, he]⟩
  | case3 acc c cs hb n rest h ih =>
    obtain ⟨ps, hps, hs⟩ := ih
    have hl := leads_token h
    obtain ⟨he, hn⟩ := scanToken?_append h
    rw [← he] at hl ⊢
    exact ⟨_, hps.next hl hn, by simp [hs]⟩
  | case4 acc c cs hb h ih =>
    obtain ⟨ps, hps, hs⟩ := ih
    obtain ⟨u, rest, hstray, he, hn, hu, hrest⟩ := exists_stray (by simpa using hb) h
    rw [he] at hu ⊢
    rw [hstray] at hps hs ⊢
    exact ⟨_, hps.next (leads_stray hu hn hrest) hn, by simp [hs]⟩

/-- The scanner cuts a text by the rule. -/
theorem exists_cut (source : String) :
    ∃ ps, Cut source.toList ps ∧ tokenize source = ps.map Placed.token := by
  obtain ⟨ps, hps, hs⟩ := exists_cut_scanFrom [] source.toList
  refine ⟨ps, hps, ?_⟩
  rw [tokenize, hs]
  simp [Function.comp_def]

/-- The rule leaves no choice. -/
theorem Cut.unique (h : Cut cs ps) (h' : Cut cs ps') : ps = ps' := by
  induction h generalizing ps' with
  | @done cs hcs =>
    cases h' with
    | done => rfl
    | token hb ht hl h =>
      obtain ⟨c, hc, hcb⟩ := hl.exists_not_blank ht
      simp [hcs c (List.mem_append_right _ hc)] at hcb
  | @token blanks rest t ps hb ht hl h ih =>
    have hhead := hl.isBlank_head ht
    generalize he : blanks ++ (t.toList ++ rest) = cs at h'
    cases h' with
    | done hcs =>
      obtain ⟨c, hc, hcb⟩ := hl.exists_not_blank ht
      simp [hcs c (he ▸ List.mem_append_right _ hc)] at hcb
    | @token blanks' rest' t' ps' hb' ht' hl' h' =>
      have hhead' := hl'.isBlank_head ht'
      have hblanks := takeWhile_run hb hhead
      rw [he, takeWhile_run hb' hhead'] at hblanks
      subst hblanks
      rw [List.append_cancel_left_eq] at he
      rw [he] at hl
      obtain rfl := hl.unique hl'
      rw [List.append_cancel_left_eq] at he
      subst he
      rw [ih h']

theorem Stray.not_recognised (h : Stray t) : ¬Recognised t := by
  intro hr
  exact h.2 0 (Nat.pos_of_ne_zero (by simpa using h.1)) (.inr ⟨t, hr, List.prefix_rfl⟩)

theorem Starts.append (h : Starts cs) (hn : cs ≠ []) (rest : List Char) : Starts (cs ++ rest) := by
  rcases h with ⟨c, hc, hb⟩ | ⟨u, hu, hp⟩
  · exact .inl ⟨c, by rw [List.head?_append_of_ne_nil _ hn]; exact hc, hb⟩
  · exact .inr ⟨u, hu, hp.trans (List.prefix_append cs rest)⟩

theorem Leads.stray_or (h : Leads (t.toList ++ rest) t) (ht : t ≠ "") : Stray t ∨ Recognised t := by
  rcases h with ⟨⟨hr, -⟩, -⟩ | ⟨-, ⟨hu, -⟩, -⟩
  · exact .inr hr
  · refine .inl ⟨ht, fun i hi hs => hu i hi ?_⟩
    have hi : i < t.toList.length := by rwa [String.length_toList]
    rw [List.drop_append_of_le_length hi.le]
    exact hs.append (by simpa using hi) rest

theorem Cut.kind (h : Cut cs ps) : ∀ p ∈ ps, Stray p.token ∧ ¬Recognised p.token ∨
    ¬Stray p.token ∧ ∃! k : TokenKind, k.Holds p.token := by
  induction h with
  | done => simp
  | token hb ht hl h ih =>
    refine List.forall_mem_cons.2 ⟨?_, ih⟩
    rcases hl.stray_or ht with hs | hr
    · exact .inl ⟨hs, hs.not_recognised⟩
    · obtain ⟨k, hk⟩ := hr
      exact .inr ⟨fun hs => hs.not_recognised ⟨k, hk⟩, k, hk, fun k' hk' => hk'.unique hk⟩

/-- Where a stray token ends something starts. -/
theorem Leads.starts (h : Leads (t.toList ++ rest) t) (hs : Stray t) (hr : rest ≠ []) :
    Starts rest := by
  rcases h with ⟨⟨hr, -⟩, -⟩ | ⟨-, ⟨hu, -⟩, hl⟩
  · exact absurd hr hs.not_recognised
  · obtain ⟨c, rest, rfl⟩ := List.exists_cons_of_ne_nil hr
    by_contra hn
    -- With one character more it would be as good.
    have hmore := hl (String.ofList (t.toList ++ [c])) ?_ ⟨rest, by simp⟩
    · simp at hmore
    · intro i hi
      rw [String.length_ofList, List.length_append, String.length_toList] at hi
      rcases Nat.lt_succ_iff_lt_or_eq.1 hi with hi | rfl
      · exact hu i hi
      · rwa [← String.length_toList, List.drop_left]

theorem Leads.recognised (h : Leads cs t) (ht : t ≠ "") (hs : Starts cs) : Recognised t := by
  rcases h with ⟨⟨hr, -⟩, -⟩ | ⟨-, ⟨hu, -⟩, -⟩
  · exact hr
  · exact absurd hs (hu 0 (Nat.pos_of_ne_zero (by simpa using ht)))

theorem Cut.isChain (h : Cut cs ps) :
    ps.IsChain fun p q => Stray p.token → Stray q.token → q.blanks ≠ [] := by
  induction h with
  | done => exact .nil
  | @token blanks rest t ps hb ht hl h ih =>
    refine List.isChain_cons.2 ⟨fun q hq hs hs' hblanks => ?_, ih⟩
    cases h with
    | done => cases hq
    | @token blanks' rest' t' ps hb' ht' hl' h =>
      obtain rfl : ⟨blanks', t'⟩ = q := by simpa using hq
      obtain rfl : blanks' = [] := hblanks
      have hstart := hl.starts hs (by simp [ht'])
      exact hs'.not_recognised (hl'.recognised ht' hstart)

end Cutting

theorem Recognised.tokenize_eq {t : String} (h : Recognised t) : tokenize t = [t] := by
  have hd : Detached [] := by simp [Detached]
  have hs := h.scanToken?_of_detached hd
  rw [List.append_nil] at hs
  rw [tokenize, scanFrom_of_scanToken? hs, scanFrom_nil]
  simp

/-- Tokens are cut by the rule of the longest match, which leaves no choice, and a text of the
pattern of a variable or a numeral is not cut at all. -/
theorem tokenize_longest (source : String) :
    (∃ places, (∀ ps, Cut source.toList ps ↔ ps = places) ∧
      tokenize source = places.map Placed.token ∧
      places.IsChain fun p q => Stray p.token → Stray q.token → q.blanks ≠ []) ∧
    (∀ t ∈ tokenize source, Stray t ∧ ¬Recognised t ∨ ¬Stray t ∧ ∃! k : TokenKind, k.Holds t) ∧
    (isVariable source ∨ isNumeral source → tokenize source = [source]) ∧
    (isVariable source ↔ Pattern.name.Matches source.toList) ∧
    (isNumeral source ↔ Pattern.numeral.Matches source.toList) := by
  obtain ⟨places, hcut, ht⟩ := exists_cut source
  refine ⟨⟨places, fun ps => ⟨fun h => h.unique hcut, fun h => h ▸ hcut⟩, ht, hcut.isChain⟩, ?_,
    fun h => ?_, isVariable_iff, isNumeral_iff⟩
  · rw [ht, List.forall_mem_map]
    exact hcut.kind
  · rcases h with h | h
    · exact Recognised.tokenize_eq ⟨.name, h⟩
    · exact Recognised.tokenize_eq ⟨.numeral, h⟩

end FormulaSheet
