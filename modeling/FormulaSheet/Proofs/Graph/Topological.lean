import Mathlib
import FormulaSheet.Proofs.Graph.Operations
import FormulaSheet.Proofs.Graph.Order

namespace FormulaSheet
open Relation

variable {r : String → String → Prop} {n m : String} {names : List String}

theorem Ordered.nodup (h : Ordered r names) : names.Nodup := by
  induction names with
  | nil => exact List.nodup_nil
  | cons a names ih =>
    obtain ⟨ha, -, ho⟩ := h
    exact List.nodup_cons.2 ⟨ha, ih ho⟩

theorem Ordered.idxOf_lt (h : Ordered r names) (hn : n ∈ names) (hr : r n m) :
    names.idxOf n < names.idxOf m := by
  induction names with
  | nil => simp at hn
  | cons a names ih =>
    obtain ⟨ha, hs, ho⟩ := h
    -- What comes after the first name is another name, so it does not stand in front.
    have hne : ∀ b ∈ names, a ≠ b := fun b hb he => ha (he ▸ hb)
    rcases List.mem_cons.1 hn with rfl | hn
    · rw [List.idxOf_cons_self, List.idxOf_cons_ne _ (hne m (hs m hr))]
      omega
    · have hlt := ih ho hn
      rw [List.idxOf_cons_ne _ (hne n hn), List.idxOf_cons_ne _ (hne m (ho.mem hn hr))]
      omega

/-- Whether a list holds what can be reached from a start, each name once: the start comes first,
and what a name is related to comes after it. -/
structure TopologicalOrder (r : String → String → Prop) (start : String) (order : List String) :
    Prop where
  head : order.head? = some start
  nodup : order.Nodup
  mem_iff : ∀ n, n ∈ order ↔ ReflTransGen r start n
  after : ∀ s t, r s t → s ∈ order → t ∈ order ∧ order.idxOf s < order.idxOf t

namespace Graph

variable {g : Graph} {pairs : Finset (String × String)} {start : String} {order : List String}
  {ops : List Operation}

theorem Represents.precedes_eq (h : g.Represents pairs) :
    g.Precedes = fun s t => (s, t) ∈ pairs :=
  funext₂ fun _ _ => propext h.precedes_iff

/-- Whatever operations built a graph, the names are recalculated in an order in which each of them
comes after all that it depends on, and nothing else is recalculated. -/
theorem recalculationOrder_topological (h : (build ops).recalculationOrder start = .ok order) :
    TopologicalOrder (fun s t => (s, t) ∈ buildPairs ops) start order := by
  rw [← (represents_build ops).precedes_eq]
  have ho : Ordered (build ops).Precedes order := recalculationOrder_ordered h
  exact
    { head := recalculationOrder_head h
      nodup := ho.nodup
      mem_iff := fun _ => mem_recalculationOrder_iff h
      after := fun _ _ hr hs => ⟨ho.mem hs hr, ho.idxOf_lt hs hr⟩ }

/-- `D1` is met on the way through `B1`, and yet it has to wait for `C1`. -/
theorem recalculationOrder_diamond :
    TopologicalOrder (fun s t => (s, t) ∈ buildPairs
      [.add "A1" "C1", .replaceDependees "D1" ["B1", "C1", "E1"], .add "A1" "B1",
        .remove "E1" "D1", .add "X1" "Y1"]) "A1" ["A1", "C1", "B1", "D1"] := by
  have h : (build [.add "A1" "C1", .replaceDependees "D1" ["B1", "C1", "E1"], .add "A1" "B1",
      .remove "E1" "D1", .add "X1" "Y1"]).recalculationOrder "A1" =
        .ok ["A1", "C1", "B1", "D1"] := by cbv
  exact recalculationOrder_topological h

end Graph

end FormulaSheet
