import Mathlib
import FormulaSheet.Proofs.FileTree
import FormulaSheet.Proofs.Sheet.Loading
import FormulaSheet.Proofs.SheetFile.RoundTrip

namespace FormulaSheet.Sheet

variable {options : Options} {s : Sheet}

section Saving

variable {files : FileTree} {path : String} {place : Place}

theorem read?_toFile (s : Sheet) : SheetFile.read? s.toFile.render = some s.toFile := by
  rw [SheetFile.read?, Json.parse_of_lex s.toFile.lexes_render.lex]
  exact s.toFile.ofTree?_tree

/-- What was saved is opened as it was, with nothing left to save. -/
theorem Reachable.openAt_saved (h : Reachable options s) (hi : options.naming.Idempotent)
    (ht : files.target path = .ok place) :
    openAt (files.withFile place s.toFile.render.toUTF8) options path =
      .ok { s with changed := false } := by
  have htext : (files.withFile place s.toFile.render.toUTF8).readText path =
      .ok s.toFile.render :=
    FileTree.readText_withFile (FileTree.not_folder_of_target ht) (FileTree.locate_of_target ht)
  exact openAt_eq_ok_iff.2 ⟨_, _, htext, s.read?_toFile, h.ofFile_toFile hi⟩

end Saving

section Opening

inductive Origin where
  | empty
  | file (file : SheetFile)
  | text (path text : String)
  | saved (files : FileTree) (path : String)

def Origin.open (options : Options) : Origin → Except SheetError Sheet
  | empty => .ok { options }
  | file f => ofFile options f
  | text path t => ofText options path t
  | saved files path => openAt files options path

variable {o : Origin}

theorem Origin.open_cases (h : o.open options = .ok s) :
    s = { options } ∨ ∃ file, ofFile options file = .ok s := by
  cases o with
  | empty => exact .inl (Except.ok.inj h).symm
  | file f => exact .inr ⟨f, h⟩
  | text path t =>
    obtain ⟨file, -, hf⟩ := ofText_eq_ok_iff.1 h
    exact .inr ⟨file, hf⟩
  | saved files path =>
    obtain ⟨_, file, -, -, hf⟩ := openAt_eq_ok_iff.1 h
    exact .inr ⟨file, hf⟩

theorem Origin.reachable_open (h : o.open options = .ok s) : Reachable options s := by
  rcases open_cases h with rfl | ⟨file, hf⟩
  · exact .empty
  · exact .ofFile file hf

theorem Origin.changed_open (h : o.open options = .ok s) : s.changed = false := by
  rcases open_cases h with rfl | ⟨file, hf⟩
  · rfl
  · rw [(ofFile_eq_ok_iff.1 hf).2.2]

end Opening

section Calls

/-- A call that may change a sheet, with the files as they are at the time. -/
inductive Call where
  | set (name input : String)
  | save (files : FileTree) (path : String)
  | load (files : FileTree) (path : String)

/-- What a call comes to: it fails, it edits a cell, or it saves or loads the sheet. Then there is
something that the sheet can be opened from. -/
inductive Outcome where
  | failed
  | edited
  | kept (o : Origin)

def Call.outcome (s : Sheet) : Call → Outcome
  | set name input =>
    match (s.set name input).1 with
    | .ok _ => .edited
    | .error _ => .failed
  | save files path =>
    match s.save files path with
    | (.ok (), _, files) => .kept (.saved files path)
    | (.error _, _, _) => .failed
  | load files path =>
    match (s.load files path).1 with
    | .ok () => .kept (.saved files path)
    | .error _ => .failed

def Call.next (s : Sheet) : Call → Sheet
  | set name input => (s.set name input).2
  | save files path => (s.save files path).2.1
  | load files path => (s.load files path).2

def after (s : Sheet) (calls : List Call) : Sheet := calls.foldl Call.next s

def outcomes (s : Sheet) : List Call → List Outcome
  | [] => []
  | call :: calls => call.outcome s :: outcomes (call.next s) calls

theorem after_concat (s : Sheet) (calls : List Call) (call : Call) :
    s.after (calls ++ [call]) = call.next (s.after calls) :=
  List.foldl_concat ..

theorem outcomes_concat (s : Sheet) (calls : List Call) (call : Call) :
    s.outcomes (calls ++ [call]) = s.outcomes calls ++ [call.outcome (s.after calls)] := by
  induction calls generalizing s with
  | nil => rfl
  | cons first calls ih =>
    rw [List.cons_append, outcomes, ih]
    rfl

theorem Reachable.next (h : Reachable options s) (call : Call) :
    Reachable options (call.next s) := by
  cases call with
  | set name input => exact h.set name input
  | save files path => exact h.save files path
  | load files path => exact h.load files path

theorem Reachable.after (h : Reachable options s) (calls : List Call) :
    Reachable options (s.after calls) := by
  induction calls generalizing s with
  | nil => exact h
  | cons call calls ih => exact ih (h.next call)

/-- All that a call can do. -/
theorem Reachable.call_cases (h : Reachable options s) (hi : options.naming.Idempotent)
    (call : Call) :
    call.outcome s = .failed ∧ call.next s = s ∨
      call.outcome s = .edited ∧ (call.next s).changed = true ∨
      ∃ o, call.outcome s = .kept o ∧ o.open options = .ok (call.next s) := by
  unfold Call.outcome Call.next
  cases call with
  | set name input =>
    dsimp only
    rcases h.coherent.set_cases name input with ⟨e, he⟩ | ⟨n, c, order, -, -, hs⟩
    · rw [he]
      exact .inl ⟨rfl, rfl⟩
    · rw [hs]
      exact .inr (.inl ⟨rfl, rfl⟩)
  | save files path =>
    dsimp only
    rw [save_eq]
    cases ht : files.target path with
    | error e => exact .inl ⟨rfl, rfl⟩
    | ok place => exact .inr (.inr ⟨_, rfl, h.openAt_saved hi ht⟩)
  | load files path =>
    dsimp only
    rw [Sheet.load, h.options_eq]
    cases ho : openAt files options path with
    | error e => exact .inl ⟨rfl, rfl⟩
    | ok loaded => exact .inr (.inr ⟨_, rfl, ho⟩)

end Calls

section Outcomes

variable {outcomes : List Outcome}

/-- Whether a cell was edited after which the sheet was neither saved nor loaded. -/
def Unsaved (outcomes : List Outcome) : Prop :=
  ∃ before after, outcomes = before ++ .edited :: after ∧ ∀ o, .kept o ∉ after

theorem not_unsaved_nil : ¬Unsaved [] := by
  rintro ⟨before, after, h, -⟩
  simp at h

theorem unsaved_concat_iff (x : Outcome) : Unsaved (outcomes ++ [x]) ↔
    x = .edited ∨ x = .failed ∧ Unsaved outcomes := by
  constructor
  · rintro ⟨before, after, h, hk⟩
    rcases List.eq_nil_or_concat' after with rfl | ⟨after, y, rfl⟩
    · exact .inl (by simpa using (List.append_inj' h rfl).2)
    · rw [← List.cons_append, ← List.append_assoc] at h
      obtain ⟨hinit, hy⟩ := List.append_inj' h rfl
      obtain rfl : x = y := by simpa using hy
      cases x with
      | failed =>
        exact .inr ⟨rfl, before, after, hinit, fun o ho => hk o (List.mem_append_left _ ho)⟩
      | edited => exact .inl rfl
      | kept o => exact absurd (List.mem_append_right _ List.mem_cons_self) (hk o)
  · rintro (rfl | ⟨rfl, before, after, rfl, hk⟩)
    · exact ⟨outcomes, [], rfl, fun o => List.not_mem_nil⟩
    · exact ⟨before, after ++ [.failed], by simp, fun o ho => hk o (by simpa using ho)⟩

def Outcome.kept? : Outcome → Option Origin
  | kept o => some o
  | _ => none

/-- What the sheet was last saved to or loaded from, or at first made from. -/
def lastKept (o : Origin) (outcomes : List Outcome) : Origin :=
  (outcomes.filterMap Outcome.kept?).getLast?.getD o

theorem lastKept_concat (o : Origin) (x : Outcome) :
    lastKept o (outcomes ++ [x]) = x.kept?.getD (lastKept o outcomes) := by
  rw [lastKept, List.filterMap_append, List.getLast?_append]
  cases x <;> rfl

end Outcomes

/-- There is something to save exactly if a cell was edited since the sheet was last saved, loaded
or made. If not, what it was saved to or made from gives it again: the cells, their values and the
graph. -/
theorem changed_iff_unsaved {o : Origin} (hi : options.naming.Idempotent)
    (h : o.open options = .ok s) (calls : List Call) :
    ((s.after calls).changed = true ↔ Unsaved (s.outcomes calls)) ∧
      ((s.after calls).changed = false →
        (lastKept o (s.outcomes calls)).open options = .ok (s.after calls)) := by
  induction calls using List.reverseRecOn with
  | nil =>
    have hc : s.changed = false := Origin.changed_open h
    exact ⟨iff_of_false (by simp [after, hc]) not_unsaved_nil, fun _ => h⟩
  | append_singleton calls call ih =>
    have hr : Reachable options (s.after calls) := (Origin.reachable_open h).after calls
    rw [after_concat, outcomes_concat, unsaved_concat_iff, lastKept_concat]
    rcases hr.call_cases hi call with ⟨hf, hs⟩ | ⟨he, hc⟩ | ⟨o', hk, ho⟩
    · rw [hf, hs]
      simpa [Outcome.kept?] using ih
    · rw [he]
      simp [hc]
    · rw [hk]
      simpa [Outcome.kept?, Origin.changed_open ho] using ho

/-- The second edit is refused, since the formulas would read each other. -/
theorem changed_iff_unsaved_two :
    ∃ files, outcomes {} [.set "A1" "=B1", .save {} "f", .set "B1" "=A1"] =
        [.edited, .kept (.saved files "f"), .failed] ∧
      openAt files {} "f" = .ok (after {} [.set "A1" "=B1", .save {} "f", .set "B1" "=A1"]) := by
  have ht : FileTree.target {} "f" = .ok ["f"] := by cbv
  have h : (set {} "A1" "=B1").1 = .ok ⟨["A1"], true⟩ := by cbv
  have h' : (set { (set {} "A1" "=B1").2 with changed := false } "B1" "=A1").1 =
      .error (.circular "B1" ["B1", "A1", "B1"]) := by cbv
  have hk : outcomes {} [.set "A1" "=B1", .save {} "f", .set "B1" "=A1"] =
      [.edited, .kept (.saved (FileTree.withFile {} ["f"]
        (toFile (set {} "A1" "=B1").2).render.toUTF8) "f"), .failed] := by
    simp only [outcomes, Call.outcome, Call.next, save_eq, ht, h, h']
  have hc : (after {} [.set "A1" "=B1", .save {} "f", .set "B1" "=A1"]).changed = false := by
    simp only [after, List.foldl, Call.next, save_eq, ht]
    cbv
  have hempty : Origin.empty.open {} = .ok {} := rfl
  have ho := (changed_iff_unsaved (fun _ => rfl) hempty _).2 hc
  rw [hk] at ho
  exact ⟨_, hk, ho⟩

end FormulaSheet.Sheet
