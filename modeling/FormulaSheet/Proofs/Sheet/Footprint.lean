import Mathlib
import FormulaSheet.Proofs.Graph.Circular
import FormulaSheet.Proofs.Graph.Topological
import FormulaSheet.Proofs.Sheet.Rejection
import FormulaSheet.Proofs.Sheet.Stored

namespace FormulaSheet.Sheet
open Relation

variable {options : Options} {s s' : Sheet} {name input n t : String} {c : Content}
  {names order : List String} {r : Recalculation}

theorem getElem?_refreshAll_of_not_mem (h : t ∉ names) :
    (names.foldl refresh s).cells[t]? = s.cells[t]? := by
  induction names generalizing s with
  | nil => rfl
  | cons n names ih =>
    obtain ⟨hn, ht⟩ := not_or.1 (mt List.mem_cons.2 h)
    rw [List.foldl_cons, ih ht, getElem?_refresh_of_ne hn]

theorem getElem?_edited_of_not_mem (hn : n ∈ order) (h : t ∉ order) :
    (s.edited n c order).cells[t]? = s.cells[t]? := by
  have ht : t ∉ order.tail := fun ht => h (List.mem_of_mem_tail ht)
  have hne : t ≠ n := fun he => h (he ▸ hn)
  exact (getElem?_refreshAll_of_not_mem ht).trans (getElem?_store_of_ne hne)

theorem Coherent.set_eq_ok (h : s.Coherent) (hs : s.set name input = (.ok r, s')) :
    ∃ n c, s.options.naming.Enters (name, input) n c ∧
      (s.graph.replaceDependees n c.reads).recalculationOrder n = .ok r.order ∧
      s' = s.edited n c r.order := by
  obtain ⟨pairs, hp⟩ := h.represents
  rcases s.set_cases name input with ⟨e, he⟩ | ⟨n, c, hn, hc, he⟩
  · rw [he] at hs
    cases hs
  · cases ho : (s.graph.replaceDependees n c.reads).recalculationOrder n with
    | ok order =>
      rw [he, put_of_ok ho] at hs
      cases hs
      exact ⟨n, c, enters_iff.2 ⟨hn, hc⟩, ho, rfl⟩
    | error e =>
      rw [he, put_of_error hp ho] at hs
      cases hs

theorem recalculationOrder_edited
    (ho : (s.graph.replaceDependees n c.reads).recalculationOrder n = .ok order) :
    (s.edited n c order).graph.recalculationOrder n = .ok order := by
  rw [graph_edited, ho]

/-- The order of an edit is there before the edit. -/
theorem Coherent.recalculationOrder_of_edited (h : s.Coherent)
    (ho : (s.graph.replaceDependees n c.reads).recalculationOrder n = .ok order) :
    s.graph.recalculationOrder n = .ok order := by
  obtain ⟨pairs, hp⟩ := h.represents
  rw [← hp.recalculationOrder_eq h.acyclic (hp.acyclic_of_recalculationOrder h.acyclic ho), ho]

theorem Coherent.reads_of_mem_tail (h : s.Coherent) (ho : s.graph.recalculationOrder n = .ok order)
    (ht : t ∈ order.tail) : t ≠ n ∧ TransGen s.content?.ReadBy n t := by
  obtain ⟨rest, rfl⟩ := List.head?_eq_some_iff.1 (Graph.recalculationOrder_head ho)
  have hne : t ≠ n := ne_of_mem_of_not_mem ht (Graph.recalculationOrder_ordered ho).1
  have hr := (Graph.mem_recalculationOrder_iff ho).1 (List.mem_cons_of_mem n ht)
  rw [h.precedes_eq, reflTransGen_iff_eq_or_transGen] at hr
  exact ⟨hne, hr.resolve_left hne⟩

/-- What an edit of the cell `n` leaves alone: all cells that are not in its order, all contents
but that of the edited cell, and all pairs but those that end at it. In the order stand the edited
cell and after it formulas that depend on it, each after what it reads. -/
structure Footprint (s s' : Sheet) (n : String) (order : List String) : Prop where
  content : ∀ t, t ≠ n → s'.content? t = s.content? t
  cell : ∀ t, t ∉ order → s'.cells[t]? = s.cells[t]?
  head : order.head? = some n
  nodup : order.Nodup
  formula : ∀ t ∈ order.tail, ∃ f v v',
    s.cells[t]? = some (.formula f v) ∧ s'.cells[t]? = some (.formula f v')
  reads : ∀ t ∈ order.tail, TransGen s.content?.ReadBy n t ∧ TransGen s'.content?.ReadBy n t
  after : ∀ a t, a ∈ order → t ∈ order → s'.content?.ReadBy a t → order.idxOf a < order.idxOf t
  hasPair_iff : ∀ a b, b ≠ n → (s'.graph.HasPair a b ↔ s.graph.HasPair a b)

theorem Coherent.footprint_of_set (h : s.Coherent)
    (ho : (s.graph.replaceDependees n c.reads).recalculationOrder n = .ok order) :
    Footprint s (s.edited n c order) n order := by
  obtain ⟨pairs, hp⟩ := h.represents
  have h' : (s.edited n c order).Coherent := h.edited ho
  have hbefore := h.recalculationOrder_of_edited ho
  have hafter := recalculationOrder_edited ho
  have hhead := Graph.recalculationOrder_head ho
  have hordered := Graph.recalculationOrder_ordered hafter
  have hcontent : ∀ t, t ≠ n → (s.edited n c order).content? t = s.content? t := by
    intro t ht
    rw [content?_edited, Function.update_of_ne ht]
  constructor
  case content => exact hcontent
  case cell => exact fun t => getElem?_edited_of_not_mem (List.mem_of_head? hhead)
  case head => exact hhead
  case nodup => exact hordered.nodup
  case formula =>
    intro t ht
    obtain ⟨hne, hr⟩ := h.reads_of_mem_tail hbefore ht
    obtain ⟨a, -, f, hf, -⟩ := TransGen.tail'_iff.1 hr
    obtain ⟨v, hv⟩ := content?_eq_formula_iff.1 hf
    obtain ⟨v', hv'⟩ := content?_eq_formula_iff.1 ((hcontent t hne).trans hf)
    exact ⟨f, v, v', hv, hv'⟩
  case reads =>
    exact fun t ht => ⟨(h.reads_of_mem_tail hbefore ht).2, (h'.reads_of_mem_tail hafter ht).2⟩
  case after =>
    intro a t ha _ hr
    rw [← h'.precedes_eq] at hr
    exact hordered.idxOf_lt ha hr
  case hasPair_iff =>
    intro a b hb
    rw [Graph.hasPair_eq, Graph.hasPair_eq, graph_edited]
    exact hp.precedes_replaceDependees_of_ne hb

/-- An edit touches nothing outside its order but the pairs that end at the edited cell. -/
theorem Reachable.footprint (h : Reachable options s) (hs : s.set name input = (.ok r, s')) :
    Footprint s s' (options.naming.normalize name) r.order := by
  obtain ⟨n, c, hc, ho, rfl⟩ := h.coherent.set_eq_ok hs
  rw [← h.options_eq, hc.normalize]
  exact h.coherent.footprint_of_set ho

theorem footprint_two :
    Footprint (setAll {} [("B1", "=A1"), ("D1", "x")])
      ((setAll {} [("B1", "=A1"), ("D1", "x")]).set "A1" "=E1").2 "A1" ["A1", "B1"] := by
  have h : Reachable {} (setAll {} [("B1", "=A1"), ("D1", "x")]) := Reachable.empty.setAll _
  have hr : ((setAll {} [("B1", "=A1"), ("D1", "x")]).set "A1" "=E1").1 =
      .ok ⟨["A1", "B1"], true⟩ := by cbv
  have hs : (setAll {} [("B1", "=A1"), ("D1", "x")]).set "A1" "=E1" =
      (.ok ⟨["A1", "B1"], true⟩, ((setAll {} [("B1", "=A1"), ("D1", "x")]).set "A1" "=E1").2) :=
    Prod.ext hr rfl
  exact h.footprint hs

/-- Whatever is entered, the cells that are computed again are those that depended on the cell
before, in the order in which they are listed before and after. -/
theorem Reachable.order_eq (h : Reachable options s) (hs : s.set name input = (.ok r, s')) :
    s.allDependents name = .ok r.order ∧ s'.allDependents name = .ok r.order := by
  obtain ⟨n, c, hc, ho, rfl⟩ := h.coherent.set_eq_ok hs
  have hn : s.cellName name = .ok n := (enters_iff.1 hc).1
  have hn' : (s.edited n c r.order).cellName name = .ok n := by
    rw [← hn, cellName, cellName, options_edited]
  exact ⟨allDependents_of_ok hn (h.coherent.recalculationOrder_of_edited ho),
    allDependents_of_ok hn' (recalculationOrder_edited ho)⟩

/-- Of two cells that read the same one, that with the later name comes first. -/
theorem order_eq_siblings :
    (setAll {} [("B1", "=A1"), ("C1", "=A1")]).allDependents "A1" = .ok ["A1", "C1", "B1"] := by
  have h : Reachable {} (setAll {} [("B1", "=A1"), ("C1", "=A1")]) := Reachable.empty.setAll _
  have hr : ((setAll {} [("B1", "=A1"), ("C1", "=A1")]).set "A1" "=E1").1 =
      .ok ⟨["A1", "C1", "B1"], true⟩ := by cbv
  exact (h.order_eq (Prod.ext hr rfl)).1

end FormulaSheet.Sheet
