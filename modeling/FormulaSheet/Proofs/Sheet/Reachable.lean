import FormulaSheet.Sheet.Storage
import FormulaSheet.Proofs.FileTree
import FormulaSheet.Proofs.Sheet.Recalculation

namespace FormulaSheet.Sheet

variable {options : Options} {s s' : Sheet} {P : Sheet → Prop}

/-- The sheets that editing, loading and saving can lead to, whether each step succeeds or not and
whatever the files hold at the time. -/
inductive Reachable (options : Options) : Sheet → Prop
  | empty : Reachable options { options }
  | set {s : Sheet} (name input : String) :
    Reachable options s → Reachable options (s.set name input).2
  | ofFile {s : Sheet} (file : SheetFile) : Sheet.ofFile options file = .ok s → Reachable options s
  | load {s : Sheet} (files : FileTree) (path : String) :
    Reachable options s → Reachable options (s.load files path).2
  | save {s : Sheet} (files : FileTree) (path : String) :
    Reachable options s → Reachable options (s.save files path).2.1

def setAll (s : Sheet) (edits : List (String × String)) : Sheet :=
  edits.foldl (fun s edit => (s.set edit.1 edit.2).2) s

theorem Reachable.setAll (h : Reachable options s) (edits : List (String × String)) :
    Reachable options (s.setAll edits) := by
  induction edits generalizing s with
  | nil => exact h
  | cons edit edits ih => exact ih (h.set edit.1 edit.2)

/-- An edit is refused before anything is touched, or it is that of a cell by a content. -/
theorem set_cases (s : Sheet) (name input : String) :
    (∃ e, s.set name input = (.error e, s)) ∨
    ∃ n c, s.cellName name = .ok n ∧ Content.parse s.options.naming input = .ok c ∧
      s.set name input = s.put n c := by
  unfold set
  split
  · exact .inl ⟨_, rfl⟩
  · exact .inl ⟨_, rfl⟩
  · next n c hn hc => exact .inr ⟨n, c, hn, hc, rfl⟩

theorem restoreCell_ok {name input : String} (h : s.restoreCell (name, input) = .ok s') :
    s' = (s.set name input).2 := by
  unfold restoreCell at h
  dsimp only at h
  split at h
  · next hs =>
    rw [hs]
    exact (Except.ok.inj h).symm
  · simp at h

theorem restoreAll_induction (hset : ∀ s name input, P s → P (s.set name input).2)
    {cells : List (String × String)} (h : cells.foldlM restoreCell s = .ok s') (hs : P s) :
    P s' := by
  induction cells generalizing s with
  | nil =>
    obtain rfl : s = s' := by simpa [pure, Except.pure] using h
    exact hs
  | cons cell cells ih =>
    rw [List.foldlM_cons] at h
    cases hc : s.restoreCell cell with
    | error e =>
      rw [hc] at h
      cases h
    | ok s₁ =>
      rw [hc] at h
      exact ih h (restoreCell_ok hc ▸ hset s cell.1 cell.2 hs)

/-- A file is loaded by edits of an empty sheet. -/
theorem ofFile_induction (hempty : P { options })
    (hset : ∀ s name input, P s → P (s.set name input).2)
    (hchanged : ∀ s b, P s → P { s with changed := b }) {file : SheetFile}
    (h : ofFile options file = .ok s) : P s := by
  unfold ofFile at h
  split at h
  · cases hc : file.cells.foldlM restoreCell { options } with
    | error e =>
      rw [hc] at h
      cases h
    | ok s₁ =>
      rw [hc] at h
      rw [← Except.ok.inj h]
      exact hchanged s₁ false (restoreAll_induction hset hc hempty)
  · simp at h

theorem ofText_eq_ok_iff {path text : String} : ofText options path text = .ok s ↔
    ∃ file, SheetFile.read? text = some file ∧ ofFile options file = .ok s := by
  unfold ofText
  cases SheetFile.read? text <;> simp

theorem openAt_eq_ok_iff {files : FileTree} {path : String} : openAt files options path = .ok s ↔
    ∃ text file, files.readText path = .ok text ∧ SheetFile.read? text = some file ∧
      ofFile options file = .ok s := by
  unfold openAt
  cases files.readText path <;> simp [ofText_eq_ok_iff]

theorem load_cases (s : Sheet) (files : FileTree) (path : String) :
    (∃ e, s.load files path = (.error e, s)) ∨
    ∃ file s', ofFile s.options file = .ok s' ∧ s.load files path = (.ok (), s') := by
  unfold load
  split
  · next s' h =>
    obtain ⟨_, file, -, -, hf⟩ := openAt_eq_ok_iff.1 h
    exact .inr ⟨file, s', hf, rfl⟩
  · next e _ => exact .inl ⟨e, rfl⟩

theorem save_eq (s : Sheet) (files : FileTree) (path : String) : s.save files path =
    match files.target path with
    | .ok place =>
      (.ok (), { s with changed := false }, files.withFile place s.toFile.render.toUTF8)
    | .error e => (.error (.io path e), s, files) := by
  rw [save, FileTree.writeText, FileTree.write]
  cases files.target path <;> rfl

theorem save_cases (s : Sheet) (files : FileTree) (path : String) :
    (∃ e, s.save files path = (.error e, s, files)) ∨
    ∃ files', s.save files path = (.ok (), { s with changed := false }, files') := by
  rw [save_eq]
  cases files.target path with
  | error e => exact .inl ⟨.io path e, rfl⟩
  | ok place => exact .inr ⟨_, rfl⟩

theorem put_options (s : Sheet) (n : String) (c : Content) :
    (s.put n c).2.options = s.options := by
  rw [put]
  dsimp only
  split
  · rfl
  · exact options_edited

theorem set_options (s : Sheet) (name input : String) :
    (s.set name input).2.options = s.options := by
  rcases s.set_cases name input with ⟨e, he⟩ | ⟨n, c, -, -, he⟩
  · rw [he]
  · rw [he, put_options]

theorem ofFile_options {file : SheetFile} (h : ofFile options file = .ok s) :
    s.options = options :=
  ofFile_induction (P := fun s => s.options = options) rfl
    (fun s name input hs => (s.set_options name input).trans hs) (fun _ _ hs => hs) h

theorem Reachable.options_eq (h : Reachable options s) : s.options = options := by
  induction h with
  | empty => rfl
  | @set s name input _ ih => exact (s.set_options name input).trans ih
  | ofFile file hf => exact ofFile_options hf
  | @load s files path _ ih =>
    rcases s.load_cases files path with ⟨e, he⟩ | ⟨file, s', hf, he⟩
    · rw [he]
      exact ih
    · rw [he]
      exact (ofFile_options hf).trans ih
  | @save s files path _ ih =>
    rcases s.save_cases files path with ⟨e, he⟩ | ⟨files', he⟩
    · rw [he]
      exact ih
    · rw [he]
      exact ih

/-- What holds of an empty sheet and is kept by edits holds of every sheet: loading and saving
bring nothing new. -/
theorem Reachable.invariant (hempty : P { options })
    (hset : ∀ s name input, P s → P (s.set name input).2)
    (hchanged : ∀ s b, P s → P { s with changed := b }) (h : Reachable options s) : P s := by
  induction h with
  | empty => exact hempty
  | @set s name input _ ih => exact hset s name input ih
  | ofFile file hf => exact ofFile_induction hempty hset hchanged hf
  | @load s files path hr ih =>
    rcases s.load_cases files path with ⟨e, he⟩ | ⟨file, s', hf, he⟩
    · rw [he]
      exact ih
    · rw [he]
      exact ofFile_induction hempty hset hchanged (hr.options_eq ▸ hf)
  | @save s files path _ ih =>
    rcases s.save_cases files path with ⟨e, he⟩ | ⟨files', he⟩
    · rw [he]
      exact ih
    · rw [he]
      exact hchanged s false ih

theorem Coherent.put (h : s.Coherent) (n : String) (c : Content) : (s.put n c).2.Coherent := by
  obtain ⟨pairs, hp⟩ := h.represents
  cases ho : (s.graph.replaceDependees n c.reads).recalculationOrder n with
  | ok order =>
    rw [put_of_ok ho]
    exact h.edited ho
  | error e =>
    rw [put_of_error hp ho]
    exact h

theorem Coherent.set (h : s.Coherent) (name input : String) : (s.set name input).2.Coherent := by
  rcases s.set_cases name input with ⟨e, he⟩ | ⟨n, c, -, -, he⟩
  · rw [he]
    exact h
  · rw [he]
    exact h.put n c

theorem Coherent.changed (h : s.Coherent) (b : Bool) : Coherent { s with changed := b } :=
  ⟨h.represents, h.precedes_iff, h.acyclic, h.settled⟩

theorem Reachable.coherent (h : Reachable options s) : s.Coherent :=
  h.invariant (coherent_empty options) (fun _ name input hs => hs.set name input)
    fun _ b hs => hs.changed b

end FormulaSheet.Sheet
