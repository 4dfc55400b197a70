import Mathlib
import FormulaSheet.Proofs.Formula.LetterCase
import FormulaSheet.Proofs.Sheet.Replay

namespace FormulaSheet.Sheet

variable {options : Options} {s s' : Sheet} {calls : List (String × String)} {n : String}

theorem accepted_sublist (s : Sheet) (calls : List (String × String)) :
    (s.accepted calls).Sublist calls := by
  induction calls generalizing s with
  | nil => exact List.Sublist.slnil
  | cons call calls ih =>
    unfold accepted
    split
    · exact (ih _).cons_cons call
    · exact (ih _).cons call

theorem restoreCell_of_set {call : String × String} {x : Except SheetError Recalculation}
    (h : s.set call.1 call.2 = (x, s')) :
    s.restoreCell call = (x.map fun _ => s').mapError (.invalidCell call.1) := by
  unfold restoreCell
  dsimp only
  rw [h]
  cases x <;> rfl

/-- Edits of which none is refused make up a file that can be loaded. -/
theorem restoreAll_of_accepted (h : s.accepted calls = calls) :
    calls.foldlM restoreCell s = .ok (s.setAll calls) := by
  induction calls generalizing s with
  | nil => rfl
  | cons call calls ih =>
    rcases hs : s.set call.1 call.2 with ⟨e | r, s'⟩
    · rw [accepted_cons_of_error hs] at h
      have := (s'.accepted_sublist calls).length_le
      rw [h, List.length_cons] at this
      omega
    · rw [accepted_cons_of_ok hs] at h
      rw [List.foldlM_cons, restoreCell_of_set hs, setAll_cons hs]
      exact ih (List.cons.inj h).2

theorem mem_toFile_iff {call : String × String} :
    call ∈ s.toFile.cells ↔ ∃ c, s.content? call.1 = some c ∧ call.2 = c.input := by
  obtain ⟨name, input⟩ := call
  simp only [toFile, List.mem_map, Prod.mk.injEq, content?, Option.map_eq_some_iff]
  constructor
  · rintro ⟨⟨n, cell⟩, hc, rfl, rfl⟩
    exact ⟨_, ⟨cell, Std.ExtTreeMap.mem_toList_iff_getElem?_eq_some.1 hc, rfl⟩, rfl⟩
  · rintro ⟨_, ⟨cell, hc, rfl⟩, rfl⟩
    exact ⟨(name, cell), Std.ExtTreeMap.mem_toList_iff_getElem?_eq_some.2 hc, rfl, rfl⟩

theorem ordered_toFile (s : Sheet) :
    (s.toFile.cells.map Prod.fst).Pairwise fun a b => compare a b = .lt := by
  rw [toFile, List.map_map, List.pairwise_map]
  exact Std.ExtTreeMap.ordered_keys_toList

/-- What a sheet holds is entered again by what is saved of it. -/
theorem Entered.enters_input (h : s.Entered) (hi : s.options.naming.Idempotent) {c : Content}
    (hc : s.content? n = some c) :
    s.options.naming.Enters (n, c.input) n c ∧ s.content? n = c.stored := by
  obtain ⟨hne, edit, he⟩ := h n c hc
  refine ⟨⟨he.normalize ▸ hi edit.1, he.isCellName, he.accepts, he.spells.input_self hi⟩, ?_⟩
  rw [hc, Content.stored_eq_some_iff.2 ⟨rfl, hne⟩]

/-- No cell is refused, although some are entered before those that they read. -/
theorem Reachable.ofFile_toFile (h : Reachable options s) (hi : options.naming.Idempotent) :
    Sheet.ofFile options s.toFile = .ok { s with changed := false } := by
  have ho := h.options_eq
  have henters : ∀ n c, s.content? n = some c →
      options.naming.Enters (n, c.input) n c ∧ s.content? n = c.stored := by
    intro n c hc
    subst ho
    exact h.entered.enters_input hi hc
  obtain ⟨hacc, hcells, hgraph⟩ : accepted { options } s.toFile.cells = s.toFile.cells ∧ _ := by
    refine h.coherent.rebuild (fun call hm => ?_) fun n hn => ?_
    · obtain ⟨c, hc, hinput⟩ := mem_toFile_iff.1 hm
      have := henters call.1 c hc
      rw [← hinput] at this
      exact ⟨call.1, c, this⟩
    · obtain ⟨c, hc⟩ := Option.ne_none_iff_exists'.1 hn
      exact ⟨(n, c.input), mem_toFile_iff.2 ⟨c, hc, rfl⟩, (henters n c hc).1.normalize⟩
  have hr : Reachable options (Sheet.setAll { options } s.toFile.cells) := empty.setAll _
  have hv : s.toFile.version = options.version := congrArg Options.version ho
  rw [Sheet.ofFile, if_pos hv, restoreAll_of_accepted hacc, Except.map, hcells, hgraph,
    hr.options_eq, ho]

/-- A saved sheet is loaded as it was, and saved again it gives the same file. -/
theorem Reachable.reload (h : Reachable options s) (hi : options.naming.Idempotent) :
    ∃ s', Sheet.ofFile options s.toFile = .ok s' ∧ s'.cells = s.cells ∧ s'.graph = s.graph ∧
      s'.options = options ∧ s'.changed = false ∧ s'.toFile = s.toFile ∧
      (s'.toFile.cells.map Prod.fst).Pairwise fun a b => compare a b = .lt :=
  ⟨_, h.ofFile_toFile hi, rfl, rfl, h.options_eq, rfl, rfl, s.ordered_toFile⟩

/-- `A1` is entered before `B1`, which it reads. -/
theorem reload_uppercase :
    ∃ s, Sheet.ofFile { naming := Naming.uppercase {} } (toFile (setAll
        { options := { naming := Naming.uppercase {} } } [("b1", "x"), ("a1", "=b1-c1")])) = .ok s ∧
      s.cells["A1"]? = some (.formula ⟨[.name "B1", .op .sub, .name "C1"]⟩
        (.error (.notNumber "B1"))) := by
  have h : Reachable { naming := Naming.uppercase {} } (setAll
      { options := { naming := Naming.uppercase {} } } [("b1", "x"), ("a1", "=b1-c1")]) :=
    Reachable.empty.setAll _
  obtain ⟨s, hs, hcells, -⟩ := h.reload (idempotent_uppercase {})
  refine ⟨s, hs, ?_⟩
  rw [hcells]
  cbv

end FormulaSheet.Sheet
