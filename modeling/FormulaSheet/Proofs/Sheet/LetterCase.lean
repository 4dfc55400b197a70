import Mathlib
import FormulaSheet.Proofs.Formula.LetterCase
import FormulaSheet.Proofs.Sheet.Reachable

namespace FormulaSheet

theorem exists_equals {input : String} (h : input.toList.head? = some '=') :
    ∃ source, input = "=" ++ source := by
  obtain ⟨cs, hcs⟩ := List.head?_eq_some_iff.1 h
  refine ⟨String.ofList cs, ?_⟩
  rw [← String.toList_inj, hcs, String.toList_append, String.toList_ofList (l := cs)]
  rfl

theorem upcase_equals (source : String) : upcase ("=" ++ source) = "=" ++ upcase source := by
  rw [← String.toList_inj, toList_upcase, String.toList_append, String.toList_append,
    List.map_append, toList_upcase]
  rfl

theorem exists_equals_of_upcase {input source : String} (h : upcase input = "=" ++ upcase source) :
    ∃ source', input = "=" ++ source' ∧ upcase source' = upcase source := by
  have hh : (input.toList.map Char.toUpper).head? = some '=' := by
    rw [← toList_upcase, h, String.toList_append]
    rfl
  rw [List.head?_map, Option.map_eq_some_iff] at hh
  obtain ⟨c, hc, hu⟩ := hh
  rw [(toUpper_eq_iff (by decide) c).1 hu] at hc
  obtain ⟨source', rfl⟩ := exists_equals hc
  rw [upcase_equals, String.append_right_inj] at h
  exact ⟨source', rfl, h⟩

theorem Content.parse_upcase (rules : Naming) (source : String) :
    (parse rules.uppercase ("=" ++ upcase source)).mapError FormatError.upcase =
      (parse rules.uppercase ("=" ++ source)).mapError FormatError.upcase := by
  rw [parse_equals, parse_equals]
  exact mapError_map_congr (Formula.parse_upcase rules source)

/-- Whether two edits are the same but for the case of letters, which is free in the name of the
cell and in formulas. -/
structure SameButCase (edit edit' : String × String) : Prop where
  name : upcase edit.1 = upcase edit'.1
  input : if edit.2.toList.head? = some '=' then upcase edit.2 = upcase edit'.2
    else edit.2 = edit'.2

def SheetError.upcase : SheetError → SheetError
  | invalidName name => invalidName (FormulaSheet.upcase name)
  | format cause => format cause.upcase
  | e => e

/-- Whether two edits are answered alike: both are accepted with the same order, or both are refused
with errors that differ in the case of what was entered at most. -/
inductive SameAnswer :
    Except SheetError Recalculation → Except SheetError Recalculation → Prop
  | ok (r : Recalculation) : SameAnswer (.ok r) (.ok r)
  | error {e e' : SheetError} : e.upcase = e'.upcase → SameAnswer (.error e) (.error e')

theorem SameAnswer.refl : ∀ x : Except SheetError Recalculation, SameAnswer x x
  | .ok r => .ok r
  | .error _ => .error rfl

theorem SameButCase.parse_eq {edit edit' : String × String} (h : SameButCase edit edit')
    (rules : Naming) :
    (Content.parse rules.uppercase edit.2).mapError FormatError.upcase =
      (Content.parse rules.uppercase edit'.2).mapError FormatError.upcase := by
  have hi := h.input
  split at hi
  · next he =>
    obtain ⟨source, hs⟩ := exists_equals he
    rw [hs, upcase_equals] at hi
    obtain ⟨source', hs', hu⟩ := exists_equals_of_upcase hi.symm
    rw [hs, hs', ← Content.parse_upcase rules source, ← Content.parse_upcase rules source', hu]
  · rw [hi]

namespace Sheet

variable {s : Sheet} {rules : Naming} {edit edit' : String × String}

theorem cellName_eq_of_upcase_eq (hs : s.options.naming = rules.uppercase)
    (h : upcase edit.1 = upcase edit'.1) :
    (s.cellName edit.1).mapError SheetError.upcase =
      (s.cellName edit'.1).mapError SheetError.upcase := by
  have hn : s.options.naming.normalize edit.1 = s.options.naming.normalize edit'.1 := by
    rw [hs]
    exact h
  rw [cellName, cellName, hn]
  split
  · rfl
  · simp only [Except.mapError, SheetError.upcase, h]

theorem set_of_sameButCase (hs : s.options.naming = rules.uppercase) (h : SameButCase edit edit') :
    SameAnswer (s.set edit.1 edit.2).1 (s.set edit'.1 edit'.2).1 ∧
      (s.set edit.1 edit.2).2 = (s.set edit'.1 edit'.2).2 := by
  have hname := cellName_eq_of_upcase_eq hs h.name
  have hparse := h.parse_eq rules
  rw [← hs] at hparse
  unfold set
  rcases mapError_cases hname with ⟨e, e', hn, hn', he⟩ | ⟨n, hn, hn'⟩
  · rw [hn, hn']
    exact ⟨.error he, rfl⟩
  rcases mapError_cases hparse with ⟨e, e', hc, hc', he⟩ | ⟨c, hc, hc'⟩
  · rw [hn, hn', hc, hc']
    refine ⟨.error ?_, rfl⟩
    rw [SheetError.upcase, SheetError.upcase, he]
  · rw [hn, hn', hc, hc']
    exact ⟨.refl _, rfl⟩

def history (s : Sheet) : List (String × String) → List (Except SheetError Recalculation × Sheet)
  | [] => []
  | edit :: edits => s.set edit.1 edit.2 :: (s.set edit.1 edit.2).2.history edits

theorem history_of_sameButCase {edits edits' : List (String × String)}
    (hs : s.options.naming = rules.uppercase) (h : List.Forall₂ SameButCase edits edits') :
    List.Forall₂ (fun step step' => SameAnswer step.1 step'.1 ∧ step.2 = step'.2)
      (s.history edits) (s.history edits') := by
  induction h generalizing s with
  | nil => exact .nil
  | @cons edit edit' edits edits' he _ ih =>
    have hset := set_of_sameButCase hs he
    refine .cons hset ?_
    -- Both runs go on from one sheet, whose rules are still the same.
    rw [← hset.2]
    apply ih
    rw [set_options, hs]

/-- If names are in upper case, two runs of edits that differ only in the case of letters are
answered alike at every step, and they go through the same sheets. -/
theorem history_case_blind (version : String) (rules : Naming)
    {edits edits' : List (String × String)} (h : List.Forall₂ SameButCase edits edits') :
    List.Forall₂ (fun step step' => SameAnswer step.1 step'.1 ∧ step.2 = step'.2)
      (history { options := ⟨version, rules.uppercase⟩ } edits)
      (history { options := ⟨version, rules.uppercase⟩ } edits') :=
  history_of_sameButCase rfl h

/-- The letter of the exponent may change its case too. The second edit is refused, and the sheet
keeps what the first has brought. -/
theorem history_case_blind_two :
    List.Forall₂ (fun step step' => SameAnswer step.1 step'.1 ∧ step.2 = step'.2)
      (history { options := ⟨"default", Naming.uppercase {}⟩ } [("a1", "=b1*0e1"), ("B1", "=a1")])
      (history { options := ⟨"default", Naming.uppercase {}⟩ } [("A1", "=B1*0E1"), ("b1", "=A1")]) ∧
    (history { options := ⟨"default", Naming.uppercase {}⟩ }
        [("a1", "=b1*0e1"), ("B1", "=a1")]).map (fun step => (step.1, step.2.toFile.cells)) =
      [(.ok ⟨["A1"], true⟩, [("A1", "=B1*0")]),
        (.error (.circular "B1" ["B1", "A1", "B1"]), [("A1", "=B1*0")])] := by
  have h : List.Forall₂ SameButCase [("a1", "=b1*0e1"), ("B1", "=a1")]
      [("A1", "=B1*0E1"), ("b1", "=A1")] :=
    .cons ⟨by cbv, by cbv⟩ (.cons ⟨by cbv, by cbv⟩ .nil)
  exact ⟨history_case_blind "default" {} h, by cbv⟩

end Sheet

end FormulaSheet
