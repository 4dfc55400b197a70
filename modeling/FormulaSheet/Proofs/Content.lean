import FormulaSheet.Content
import FormulaSheet.Proofs.Formula.Spelling

namespace FormulaSheet

section Blanks

variable {c : Char} {cs : List Char}

theorem trim_eq_self (h : ∀ c ∈ cs, isBlank c = false) : trim cs = cs := by
  have hd : ∀ {ds : List Char}, (∀ c ∈ ds, isBlank c = false) → ds.dropWhile isBlank = ds :=
    fun h => @dropWhile_run _ _ [] _ (by simp) fun c hc => h c (List.mem_of_mem_head? hc)
  rw [trim, hd h, hd fun c hc => h c (List.mem_reverse.1 hc), List.reverse_reverse]

theorem exists_trim_eq_cons (h : isBlank c = false) (cs : List Char) :
    ∃ cs', trim (c :: cs) = c :: cs' := by
  rw [trim, List.dropWhile_cons_of_neg (by simp [h]), List.reverse_cons, List.dropWhile_append]
  split
  · exact ⟨[], by simp [h]⟩
  · exact ⟨_, by rw [List.reverse_append]; rfl⟩

end Blanks

theorem readNumber_equals (cs : List Char) : readNumber ('=' :: cs) = none := by
  have hs : (splitSign ('=' :: cs)).2 = '=' :: cs := rfl
  rw [readNumber_of_toLower_ne hs (by decide) (by decide)]
  simp [readDecimal]

def SpellsNumber (input : String) (x : Float) : Prop :=
  readNumber (trim input.toList) = some x ∧ x.isFinite

def Naming.Idempotent (rules : Naming) : Prop :=
  ∀ name, rules.normalize (rules.normalize name) = rules.normalize name

namespace Content

variable {rules : Naming} {input : String} {c : Content}

def Spells (rules : Naming) (input : String) : Content → Prop
  | number x => SpellsNumber input x
  | text s => s = input ∧ input.toList.head? ≠ some '=' ∧ ∀ x, ¬SpellsNumber input x
  | formula f => (∃ source, input = "=" ++ source ∧ Formula.parse rules source = .ok f) ∧
      ∀ x, ¬SpellsNumber input x

theorem not_spellsNumber_equals (source : String) (x : Float) :
    ¬SpellsNumber ("=" ++ source) x := by
  rintro ⟨hx, -⟩
  obtain ⟨cs, hcs⟩ := exists_trim_eq_cons (c := '=') (by decide) source.toList
  rw [String.toList_append] at hx
  change readNumber (trim ('=' :: source.toList)) = _ at hx
  rw [hcs, readNumber_equals] at hx
  cases hx

theorem parse_equals (rules : Naming) (source : String) :
    parse rules ("=" ++ source) = (Formula.parse rules source).map formula := by
  have hn : (readNumber (trim ("=" ++ source).toList)).filter Float.isFinite = none := by
    apply Option.eq_none_iff_forall_ne_some.2
    intro x hx
    exact not_spellsNumber_equals source x (Option.filter_eq_some_iff.1 hx)
  rw [parse, hn, String.toList_append]
  change (Formula.parse rules (String.ofList source.toList)).map formula = _
  rw [String.ofList_toList]

theorem parse_eq_ok_iff : parse rules input = .ok c ↔ c.Spells rules input := by
  have hnumber : ∀ x, (readNumber (trim input.toList)).filter Float.isFinite = some x ↔
      SpellsNumber input x := fun x => Option.filter_eq_some_iff
  have hnone : (readNumber (trim input.toList)).filter Float.isFinite = none ↔
      ∀ x, ¬SpellsNumber input x := by
    simp only [← hnumber, Option.eq_none_iff_forall_ne_some, ne_eq]
  constructor
  · intro h
    unfold parse at h
    split at h
    · next x hx =>
      cases h
      exact (hnumber x).1 hx
    · next source hn he =>
      cases hf : Formula.parse rules (String.ofList source) with
      | error e => simp [hf, Except.map] at h
      | ok f =>
        rw [hf] at h
        cases h
        refine ⟨⟨String.ofList source, ?_, hf⟩, hnone.1 hn⟩
        rw [← String.toList_inj, he, String.toList_append, String.toList_ofList (l := source)]
        rfl
    · next hn he =>
      cases h
      refine ⟨rfl, fun hh => ?_, hnone.1 hn⟩
      obtain ⟨source, hs⟩ := List.head?_eq_some_iff.1 hh
      exact he source hs
  · intro h
    cases c with
    | number x => rw [parse, (hnumber x).2 h]
    | text s =>
      obtain ⟨rfl, he, hn⟩ := h
      rw [parse, hnone.2 hn]
      split
      · next hx => cases hx
      · next hs => simp [hs] at he
      · rfl
    | formula f =>
      obtain ⟨⟨source, rfl, hf⟩, -⟩ := h
      exact (parse_equals rules source).trans (congrArg (Except.map formula) hf)

/-- A finite number is read from its text, which has no blanks. -/
theorem spellsNumber_numberText {x : Float} (h : x.isFinite) : SpellsNumber (numberText x) x := by
  obtain ⟨negative, p, ht, -, -⟩ := exists_positional_numberText h
  have hb : ∀ c ∈ (numberText x).toList, isBlank c = false := by
    intro c hc
    rw [ht, String.toList_ofList] at hc
    rcases List.mem_append.1 hc with hc | hc
    · obtain rfl : c = '-' := by
        cases negative with
        | true => simpa [signText] using hc
        | false => simp [signText] at hc
      decide
    · rcases Positional.isDigit_or_of_mem_text hc with hd | rfl
      · have := toNat_of_isDigit hd
        exact isBlank_eq_false (by omega) (by omega)
      · decide
  refine ⟨?_, h⟩
  rw [trim_eq_self hb, readNumber_numberText h]

theorem Spells.exists_resolve (h : c.Spells rules input) {v : String} (hv : v ∈ c.reads) :
    ∃ w, rules.resolve w = .ok v := by
  cases c with
  | formula f =>
    obtain ⟨⟨source, -, hf⟩, -⟩ := h
    exact Formula.exists_resolve hf (Std.ExtTreeSet.mem_toList.1 hv)
  | _ => cases hv

/-- The text of a content stands for the content again, also under other rules, if they leave the
names in it as they are. -/
theorem Spells.input_iff (h : c.Spells rules input) (rules' : Naming) :
    c.Spells rules' c.input ↔ ∀ v ∈ c.reads, rules'.resolve v = .ok v := by
  cases c with
  | number x => exact iff_of_true (spellsNumber_numberText h.2) (List.forall_mem_nil _)
  | text s =>
    obtain ⟨rfl, h⟩ := h
    exact iff_of_true ⟨rfl, h⟩ (List.forall_mem_nil _)
  | formula f =>
    obtain ⟨⟨source, -, hf⟩, -⟩ := h
    have hnames : (∀ v ∈ (formula f).reads, rules'.resolve v = .ok v) ↔
        ∀ v ∈ f.names, rules'.resolve v = .ok v := by
      simp only [reads, Std.ExtTreeSet.mem_toList]
    rw [hnames, ← Formula.parse_text_iff hf, ← parse_eq_ok_iff]
    change parse rules' ("=" ++ f.text) = _ ↔ _
    rw [parse_equals]
    cases Formula.parse rules' f.text <;> simp [Except.map]

/-- What is entered into a cell is entered again by the text of its content. -/
theorem Spells.input_self (h : c.Spells rules input) (hr : rules.Idempotent) :
    c.Spells rules c.input := by
  refine (h.input_iff rules).2 fun v hv => ?_
  obtain ⟨w, hw⟩ := h.exists_resolve hv
  rw [Naming.resolve_self_iff hw, ← (Naming.resolve_eq_ok_iff.1 hw).1]
  exact hr w

end Content

end FormulaSheet
