import FormulaSheet.Proofs.SheetFile.Schema
import FormulaSheet.Settings.Load

namespace FormulaSheet.Settings

variable {c : Char} {cs rest : List Char} {d : Draft} {text : String}

/-- Whether a character starts neither a comment nor a key. -/
def StartsNothing (c : Char) : Prop := isKeyChar c = false ∧ c ∉ ['#', '"', '\'']

instance (c : Char) : Decidable (StartsNothing c) := inferInstanceAs (Decidable (_ ∧ _))

theorem startsNothing_of_isSpace (h : Json.isSpace c) : StartsNothing c := by
  simp only [Json.isSpace, Bool.or_eq_true, beq_iff_eq] at h
  obtain ((rfl | rfl) | rfl) | rfl := h <;> decide

theorem readKey_eq_none (hc : StartsNothing c) : readKey (c :: cs) = none := by
  obtain ⟨hk, hq⟩ := hc
  unfold readKey
  split
  · next h => simp_all
  · next h => simp_all
  · rw [List.takeWhile_cons_of_neg (by simp [hk]), if_pos rfl]

theorem skipComment_eq_skipSpaces (h : skipSpaces cs = c :: rest) (hc : StartsNothing c) :
    skipComment cs = c :: rest := by
  unfold skipComment
  rw [h]
  split
  · next he => simp_all [StartsNothing]
  · rfl

theorem dropWhile_skipSpaces (cs : List Char) :
    (skipSpaces cs).dropWhile Json.isSpace = cs.dropWhile Json.isSpace := by
  unfold skipSpaces
  induction cs with
  | nil => rfl
  | cons c cs ih =>
    by_cases hc : isSpace c
    · have hj : Json.isSpace c := by
        unfold isSpace at hc
        unfold Json.isSpace
        grind
      rw [List.dropWhile_cons_of_pos hc, List.dropWhile_cons_of_pos hj, ih]
    · rw [List.dropWhile_cons_of_neg hc]

theorem dropWhile_lineBreak? (h : lineBreak? cs = some rest) :
    rest.dropWhile Json.isSpace = cs.dropWhile Json.isSpace := by
  unfold lineBreak? at h
  split at h
  · rw [← Option.some_inj.1 h]
    rfl
  · rw [← Option.some_inj.1 h]
    rfl
  · cases h

theorem exists_skipSpaces (h : cs.dropWhile Json.isSpace = c :: rest) (hc : StartsNothing c) :
    ∃ x xs, skipSpaces cs = x :: xs ∧ StartsNothing x := by
  rw [← dropWhile_skipSpaces] at h
  cases hs : skipSpaces cs with
  | nil =>
    rw [hs] at h
    cases h
  | cons x xs =>
    refine ⟨x, xs, rfl, ?_⟩
    rw [hs] at h
    by_cases hx : Json.isSpace x
    · exact startsNothing_of_isSpace hx
    · rw [List.dropWhile_cons_of_neg hx] at h
      exact (List.cons.inj h).1 ▸ hc

theorem dropWhile_endLine {after : List Char} (h : cs.dropWhile Json.isSpace = c :: rest)
    (hc : StartsNothing c) (he : endLine cs = some after) :
    after.dropWhile Json.isSpace = c :: rest := by
  obtain ⟨x, xs, hs, hx⟩ := exists_skipSpaces h hc
  rw [endLine, skipComment_eq_skipSpaces hs hx, if_neg (List.cons_ne_nil x xs)] at he
  rw [dropWhile_lineBreak? he, ← hs, dropWhile_skipSpaces, h]

/-- Blank lines are passed over, and then a key has to stand. -/
theorem readAll_eq_none (h : cs.dropWhile Json.isSpace = c :: rest) (hc : StartsNothing c) :
    d.readAll cs = none := by
  have hkey : ∀ (e : Draft) (cs : List Char), cs.dropWhile Json.isSpace = c :: rest →
      e.readPair (skipSpaces cs) = none := by
    intro e cs hcs
    obtain ⟨x, xs, hs, hx⟩ := exists_skipSpaces hcs hc
    rw [hs, Draft.readPair, readKey_eq_none hx]
    rfl
  fun_induction Draft.readAll d cs with
  | case1 => cases h
  | case2 d cs _ after he ih => exact ih (dropWhile_endLine h hc he)
  | case3 | case5 => rfl
  | case4 d cs _ _ _ _ hp =>
    rw [hkey d cs h] at hp
    cases hp

/-- A text that is a saved sheet is no settings file. -/
theorem read?_eq_none {file : SheetFile} (h : SheetFile.read? text = some file) :
    read? text = none := by
  obtain ⟨c, rest, hs, hc⟩ := SheetFile.start_of_read? h
  have hn : StartsNothing c := by
    rcases hc with rfl | rfl <;> decide
  unfold read?
  split
  · next cs he =>
    -- The mark of the byte order is no space of JSON, so nothing can stand before it.
    rw [he, List.dropWhile_cons_of_neg (by decide)] at hs
    rw [← (List.cons.inj hs).1] at hc
    simp at hc
  · exact Option.map_eq_none_iff.2 (readAll_eq_none hs hn)

/-- In a file that holds a saved sheet there are no settings, whether it can be read or not. -/
theorem load_sheet {path : String} {bytes : ByteArray} {file : SheetFile}
    (hb : String.fromUTF8? bytes = some text) (h : SheetFile.read? text = some file)
    (refusal? : Option IoError) :
    (load (.named path (some (.file bytes)) refusal?)).1 = {} := by
  have hentry : ∃ warning, ofEntry path (.file bytes) refusal? = .error warning := by
    unfold ofEntry Entry.read Entry.text
    split
    · exact ⟨_, rfl⟩
    · cases refusal? with
      | some e => exact ⟨_, rfl⟩
      | none =>
        simp only [hb, read?_eq_none h]
        exact ⟨_, rfl⟩
  obtain ⟨warning, hw⟩ := hentry
  rw [load, hw]

end FormulaSheet.Settings
