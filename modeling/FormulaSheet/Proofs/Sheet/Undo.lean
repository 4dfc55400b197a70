import Mathlib
import FormulaSheet.Proofs.Sheet.Reload

namespace FormulaSheet

theorem Content.spells_empty (rules : Naming) : (text "").Spells rules "" := by
  refine ⟨rfl, by simp, fun x hx => ?_⟩
  have hn : readNumber (trim "".toList) = none := by decide
  rw [SpellsNumber, hn] at hx
  cases hx.1

namespace Sheet

variable {options : Options} {s s' : Sheet} {edit : String × String} {name n : String} {c : Content}

/-- A cell that alone was changed is brought back by an edit that enters what it held before. -/
theorem Coherent.set_back (h : s.Coherent) (h' : s'.Coherent) (ho : s'.options = s.options)
    (hs : ∀ m, m ≠ n → s'.content? m = s.content? m)
    (he : s.options.naming.Enters edit n c) (hn : s.content? n = c.stored) :
    ∃ r s'', s'.set edit.1 edit.2 = (.ok r, s'') ∧ s''.cells = s.cells ∧ s''.graph = s.graph := by
  rw [← ho] at he
  obtain ⟨order, hr, hcoherent, -⟩ :=
    h'.set_of_final h.not_readBy_self (fun m hm d hd => (hs m hm).symm.trans hd) he hn
  have hcontent : (s'.edited n c order).content? = s.content? := by
    rw [content?_edited, ← hn]
    funext m
    by_cases hm : m = n
    · rw [hm, Function.update_self]
    · rw [Function.update_of_ne hm, hs m hm]
  exact ⟨_, _, hr, h.cells_eq hcoherent hcontent, h.graph_eq hcoherent hcontent⟩

/-- The content of a cell, the empty text of an absent one included, is entered again by its
text. -/
theorem Entered.enters_contents (h : s.Entered) (hi : s.options.naming.Idempotent)
    (hn : s.cellName name = .ok n) :
    ∃ c, s.contents name = .ok c ∧ s.options.naming.Enters (name, c.input) n c ∧
      s.content? n = c.stored := by
  obtain ⟨hnormal, hcell, hok⟩ := cellName_eq_ok_iff.1 hn
  have hc : s.contents name = .ok ((s.content? n).getD (.text "")) := by
    rw [contents, hn]
    rfl
  cases hs : s.content? n with
  | none =>
    rw [hs] at hc
    exact ⟨.text "", hc, ⟨hnormal, hcell, hok, Content.spells_empty _⟩, rfl⟩
  | some c =>
    obtain ⟨he, hstored⟩ := h.enters_input hi hs
    rw [hs] at hc
    exact ⟨c, hc, ⟨hnormal, hcell, hok, he.spells⟩, hs.symm.trans hstored⟩

theorem cellName_of_contents (hc : s.contents name = .ok c) : ∃ n, s.cellName name = .ok n := by
  rw [contents] at hc
  cases hn : s.cellName name with
  | ok n => exact ⟨n, rfl⟩
  | error e =>
    rw [hn] at hc
    cases hc

/-- An edit is undone by entering what the cell held before, which is never refused: all cells,
values and dependencies are as they were. Entering what a cell holds changes nothing. -/
theorem Reachable.undo (h : Reachable options s) (hi : options.naming.Idempotent) :
    (∀ name input r s', s.set name input = (.ok r, s') →
      ∃ c r' s'', s.contents name = .ok c ∧ s'.set name c.input = (.ok r', s'') ∧
        s''.cells = s.cells ∧ s''.graph = s.graph) ∧
    ∀ name c, s.contents name = .ok c →
      ∃ r s', s.set name c.input = (.ok r, s') ∧ s'.cells = s.cells ∧ s'.graph = s.graph := by
  rw [← h.options_eq] at hi
  constructor
  · intro name input r s' hs
    rcases h.coherent.set_cases name input with ⟨e, he⟩ | ⟨n, d, order, hd, hcoherent, he⟩
    · rw [he] at hs
      cases hs
    rw [he] at hs
    obtain rfl : s.edited n d order = s' := congrArg Prod.snd hs
    obtain ⟨c, hc, henters, hstored⟩ := h.entered.enters_contents hi (enters_iff.1 hd).1
    have hne : ∀ m, m ≠ n → (s.edited n d order).content? m = s.content? m := by
      intro m hm
      rw [content?_edited, Function.update_of_ne hm]
    obtain ⟨r', s'', hr, hcells, hgraph⟩ :=
      h.coherent.set_back hcoherent options_edited hne henters hstored
    exact ⟨c, r', s'', hc, hr, hcells, hgraph⟩
  · intro name c hc
    obtain ⟨n, hn⟩ := cellName_of_contents hc
    obtain ⟨d, hd, henters, hstored⟩ := h.entered.enters_contents hi hn
    obtain rfl : d = c := Except.ok.inj (hd.symm.trans hc)
    obtain ⟨r, s', hr, hcells, hgraph⟩ :=
      h.coherent.set_back h.coherent rfl (fun _ _ => rfl) henters hstored
    exact ⟨r, s', hr, hcells, hgraph⟩

/-- The text comes back, and with it the error of the cell that reads it. -/
theorem undo_two :
    (((setAll {} [("A1", "=B1"), ("B1", "x")]).set "B1" "=C1").2.set "B1" "x").2.cells["A1"]? =
      some (.formula ⟨[.name "B1"]⟩ (.error (.notNumber "B1"))) := by
  have h : Reachable {} (setAll {} [("A1", "=B1"), ("B1", "x")]) := Reachable.empty.setAll _
  have hr : ((setAll {} [("A1", "=B1"), ("B1", "x")]).set "B1" "=C1").1 =
      .ok ⟨["B1", "A1"], true⟩ := by cbv
  have hs : (setAll {} [("A1", "=B1"), ("B1", "x")]).set "B1" "=C1" =
      (.ok ⟨["B1", "A1"], true⟩, ((setAll {} [("A1", "=B1"), ("B1", "x")]).set "B1" "=C1").2) := by
    rw [← hr]
  have hx : (setAll {} [("A1", "=B1"), ("B1", "x")]).contents "B1" = .ok (.text "x") := by cbv
  obtain ⟨c, r, s, hc, hback, hcells, -⟩ := (h.undo fun _ => rfl).1 "B1" "=C1" _ _ hs
  obtain rfl : .text "x" = c := Except.ok.inj (hx.symm.trans hc)
  rw [Content.input] at hback
  rw [hback, hcells]
  cbv

end Sheet

end FormulaSheet
