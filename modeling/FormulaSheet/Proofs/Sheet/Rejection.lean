import Mathlib
import FormulaSheet.Proofs.Sheet.Reachable

namespace FormulaSheet
open Relation

theorem Content.exists_mem_reads_iff {c : Content} {p : String → Prop} :
    (∃ v ∈ c.reads, p v) ↔ ∃ f, c = .formula f ∧ ∃ v ∈ f.names, p v := by
  cases c with
  | formula f => simp [reads, Std.ExtTreeSet.mem_toList]
  | _ => simp [reads]

namespace Sheet

variable {options : Options} {s : Sheet} {name n input : String} {c : Content}
  {order : List String} {e : SheetError}

theorem set_of_ok (hn : s.cellName name = .ok n)
    (hc : Content.parse s.options.naming input = .ok c) : s.set name input = s.put n c := by
  rw [set, hn, hc]

theorem allDependents_of_ok (hn : s.cellName name = .ok n)
    (ho : s.graph.recalculationOrder n = .ok order) : s.allDependents name = .ok order := by
  rw [allDependents, hn]
  dsimp only [bind, Except.bind]
  rw [ho]
  rfl

theorem Coherent.exists_allDependents (h : s.Coherent) (hn : s.cellName name = .ok n) :
    ∃ order, s.allDependents name = .ok order ∧
      ∀ v, v ∈ order ↔ ReflTransGen s.content?.ReadBy n v := by
  obtain ⟨order, ho⟩ := h.acyclic.exists_recalculationOrder n
  refine ⟨order, allDependents_of_ok hn ho, fun v => ?_⟩
  rw [Graph.mem_recalculationOrder_iff ho, h.precedes_eq]

/-- No cell depends on itself, whatever was entered, refused or loaded before, and so the walk
along the graph comes to its end from every name. -/
theorem Reachable.no_cycle (h : Reachable options s) :
    (∀ n, ¬TransGen s.graph.Precedes n n) ∧
    ∀ name n, s.cellName name = .ok n → ∃ order, s.allDependents name = .ok order := by
  refine ⟨h.coherent.acyclic, fun name n hn => ?_⟩
  obtain ⟨order, ho, -⟩ := h.coherent.exists_allDependents hn
  exact ⟨order, ho⟩

/-- The last of these edits is refused. -/
theorem no_cycle_three :
    ¬TransGen (setAll {} [("A1", "=B1"), ("B1", "=C1"), ("C1", "=A1")]).graph.Precedes "C1" "C1" ∧
      ∃ order, (setAll {} [("A1", "=B1"), ("B1", "=C1"), ("C1", "=A1")]).allDependents "C1" =
        .ok order := by
  have h : Reachable {} (setAll {} [("A1", "=B1"), ("B1", "=C1"), ("C1", "=A1")]) :=
    Reachable.empty.setAll _
  have hn : (setAll {} [("A1", "=B1"), ("B1", "=C1"), ("C1", "=A1")]).cellName "C1" =
      .ok "C1" := by
    rw [cellName, h.options_eq]
    rfl
  exact ⟨h.no_cycle.1 "C1", h.no_cycle.2 "C1" "C1" hn⟩

theorem Coherent.put_error_iff (h : s.Coherent) :
    (∃ e, (s.put n c).1 = .error e) ↔ ∃ v ∈ c.reads, ReflTransGen s.content?.ReadBy n v := by
  obtain ⟨pairs, hp⟩ := h.represents
  rw [← not_iff_not]
  push Not
  rw [← h.precedes_eq, ← hp.exists_order_replaceDependees_iff h.acyclic]
  cases hr : (s.graph.replaceDependees n c.reads).recalculationOrder n with
  | ok order => simp [put_of_ok hr]
  | error e => simp [put_of_error hp hr]

/-- A refused content would close a loop through the cell, and it leaves no trace. -/
theorem Coherent.put_error (h : s.Coherent) (he : (s.put n c).1 = .error e) :
    (s.put n c).2 = s ∧ ∃ cycle, e = .circular n cycle ∧
      Loop (Contents.ReadBy (Function.update s.content? n c.stored)) n cycle := by
  obtain ⟨pairs, hp⟩ := h.represents
  cases hr : (s.graph.replaceDependees n c.reads).recalculationOrder n with
  | ok order =>
    rw [put_of_ok hr] at he
    cases he
  | error e' =>
    rw [put_of_error hp hr] at he ⊢
    obtain rfl : SheetError.circular n e'.cycle = e := Except.error.inj he
    refine ⟨rfl, e'.cycle, rfl, ?_⟩
    rw [← h.precedes_replaceDependees n c]
    exact hp.loop_replaceDependees h.acyclic hr

/-- An input is refused exactly if it is a formula that reads the cell itself or something that
depends on it, and the answer tells a loop that the formula would have closed. -/
theorem Reachable.set_error_iff (h : Reachable options s) (hn : s.cellName name = .ok n)
    (hc : Content.parse s.options.naming input = .ok c) :
    ((∃ e, (s.set name input).1 = .error e) ↔
      ∃ f, c = .formula f ∧ ∃ v ∈ f.names, v = n ∨ TransGen s.content?.ReadBy n v) ∧
    (∃ order, s.allDependents name = .ok order ∧
      ∀ v, v ∈ order ↔ v = n ∨ TransGen s.content?.ReadBy n v) ∧
    ∀ e, (s.set name input).1 = .error e → ∃ cycle, e = .circular n cycle ∧
      Loop (Contents.ReadBy (Function.update s.content? n c.stored)) n cycle := by
  simp only [← reflTransGen_iff_eq_or_transGen, set_of_ok hn hc]
  refine ⟨?_, h.coherent.exists_allDependents hn, fun e he => (h.coherent.put_error he).2⟩
  rw [h.coherent.put_error_iff, Content.exists_mem_reads_iff]

theorem set_error_two :
    ((setAll {} [("A1", "=B1")]).set "B1" "=C1+A1").1 =
        .error (.circular "B1" ["B1", "A1", "B1"]) ∧
      Loop (Contents.ReadBy (Function.update (setAll {} [("A1", "=B1")]).content? "B1"
        (some (.formula ⟨[.name "C1", .op .add, .name "A1"]⟩)))) "B1" ["B1", "A1", "B1"] := by
  have h : Reachable {} (setAll {} [("A1", "=B1")]) := Reachable.empty.setAll _
  have hn : (setAll {} [("A1", "=B1")]).cellName "B1" = .ok "B1" := by
    rw [cellName, h.options_eq]
    rfl
  have hc : Content.parse (setAll {} [("A1", "=B1")]).options.naming "=C1+A1" =
      .ok (.formula ⟨[.name "C1", .op .add, .name "A1"]⟩) := by
    rw [h.options_eq]
    cbv
  have he : ((setAll {} [("A1", "=B1")]).set "B1" "=C1+A1").1 =
      .error (.circular "B1" ["B1", "A1", "B1"]) := by cbv
  obtain ⟨cycle, hs, hl⟩ := (h.set_error_iff hn hc).2.2 _ he
  cases hs
  exact ⟨he, hl⟩

theorem Coherent.set_error (h : s.Coherent) (he : (s.set name input).1 = .error e) :
    (s.set name input).2 = s := by
  rcases s.set_cases name input with ⟨e', hs⟩ | ⟨n, c, -, -, hs⟩
  · rw [hs]
  · rw [hs] at he ⊢
    exact (h.put_error he).1

theorem load_error {files : FileTree} {path : String} (he : (s.load files path).1 = .error e) :
    (s.load files path).2 = s := by
  rcases s.load_cases files path with ⟨e', hs⟩ | ⟨file, s', -, hs⟩
  · rw [hs]
  · rw [hs] at he
    cases he

theorem save_error {files : FileTree} {path : String} (he : (s.save files path).1 = .error e) :
    (s.save files path).2.1 = s := by
  rcases s.save_cases files path with ⟨e', hs⟩ | ⟨files', hs⟩
  · rw [hs]
  · rw [hs] at he
    cases he

/-- What fails changes nothing, in the cells and in the graph. -/
theorem Reachable.unchanged_of_error (h : Reachable options s) :
    (∀ name input e, (s.set name input).1 = .error e → (s.set name input).2 = s) ∧
    (∀ files path e, (s.load files path).1 = .error e → (s.load files path).2 = s) ∧
    ∀ files path e, (s.save files path).1 = .error e → (s.save files path).2.1 = s :=
  ⟨fun _ _ _ he => h.coherent.set_error he, fun _ _ _ he => load_error he,
    fun _ _ _ he => save_error he⟩

theorem unchanged_of_error_two :
    ((setAll {} [("A1", "=B1")]).set "B1" "=A1").2 = setAll {} [("A1", "=B1")] := by
  have h : Reachable {} (setAll {} [("A1", "=B1")]) := Reachable.empty.setAll _
  have he : ((setAll {} [("A1", "=B1")]).set "B1" "=A1").1 =
      .error (.circular "B1" ["B1", "A1", "B1"]) := by cbv
  exact h.unchanged_of_error.1 "B1" "=A1" _ he

end Sheet

end FormulaSheet
