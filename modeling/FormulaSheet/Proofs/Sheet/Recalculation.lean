import FormulaSheet.Proofs.Graph.Replace
import FormulaSheet.Proofs.Sheet.Contents

namespace FormulaSheet.Sheet
open Relation

variable {s s' : Sheet} {n t : String} {c : Content} {names order : List String}
  {pairs : Finset (String × String)}

/-- Whether the formula of a cell, if it has one, has the value that it has over what the other
cells hold. -/
def Settled (s : Sheet) (t : String) : Prop :=
  ∀ f v, s.cells[t]? = some (.formula f v) → v = f.evaluate s.lookup

/-- A cell is settled as long as nothing that it reads changes. -/
theorem Settled.frame (h : s.Settled t) (hc : ∀ a, a ≠ n → s'.cells[a]? = s.cells[a]?)
    (ht : t ≠ n) (hr : ¬s'.content?.Reads t n) : s'.Settled t := by
  intro f v hf
  have hs : v = f.evaluate s.lookup := h f v (hc t ht ▸ hf)
  rw [hs]
  refine Formula.evaluate_congr fun a ha => lookup_congr (hc a ?_).symm
  rintro rfl
  exact hr ⟨f, content?_eq_formula_iff.2 ⟨v, hf⟩, ha⟩

theorem settled_insert {f : Formula} (hn : n ∉ f.names) :
    (s.insert n (.formula f (f.evaluate s.lookup))).Settled n := by
  intro g v hg
  rw [getElem?_insert_self] at hg
  obtain ⟨rfl, rfl⟩ : f = g ∧ f.evaluate s.lookup = v := by simpa using hg
  refine Formula.evaluate_congr fun a ha => lookup_congr (getElem?_insert_of_ne ?_).symm
  rintro rfl
  exact hn ha

theorem settled_store (hn : n ∉ c.reads) : (s.store n c).Settled n := by
  cases c with
  | formula f =>
    have hf : n ∉ f.names := by simpa [Content.reads, Std.ExtTreeSet.mem_toList] using hn
    exact settled_insert hf
  | number x =>
    intro f v hf
    rw [store, getElem?_insert_self] at hf
    simp at hf
  | text t =>
    intro f v hf
    rw [store] at hf
    split at hf
    · simp at hf
    · rw [getElem?_insert_self] at hf
      simp at hf

theorem settled_refresh (hn : ¬s.content?.Reads n n) : (s.refresh n).Settled n := by
  rcases s.refresh_cases n with ⟨hc, he⟩ | ⟨f, v, hc, he⟩
  · rw [he]
    exact fun f v hf => absurd hf (hc f v)
  · rw [he]
    exact settled_insert fun hf => hn ⟨f, content?_eq_formula_iff.2 ⟨v, hc⟩, hf⟩

/-- The invariant of a recalculation: the cells that are not waiting any more are settled. A cell
that is computed again unsettles only cells that read it, and these come after it. -/
theorem settled_refreshAll (ho : Ordered s.content?.ReadBy names)
    (hs : ∀ t, t ∉ names → s.Settled t) (t : String) : (names.foldl refresh s).Settled t := by
  induction names generalizing s with
  | nil => exact hs t (by simp)
  | cons n names ih =>
    obtain ⟨hn, hr, ho⟩ := ho
    rw [← content?_refresh (s := s) (n := n)] at ho
    refine ih ho fun t ht => ?_
    by_cases he : t = n
    -- The cell itself is right now, as it does not read itself.
    · rw [he]
      exact settled_refresh fun h => hn (hr n h)
    · have hw : t ∉ n :: names := by simp [he, ht]
      refine (hs t hw).frame (fun a => getElem?_refresh_of_ne) he ?_
      rw [content?_refresh]
      exact fun h => ht (hr t h)

def edited (s : Sheet) (n : String) (c : Content) (order : List String) : Sheet :=
  { order.tail.foldl refresh
      ({ s with graph := s.graph.replaceDependees n c.reads }.store n c) with changed := true }

theorem content?_edited : (s.edited n c order).content? = Function.update s.content? n c.stored :=
  (content?_refreshAll _).trans content?_store

theorem graph_edited : (s.edited n c order).graph = s.graph.replaceDependees n c.reads :=
  (congrArg graph (frame_refreshAll _ _)).trans (congrArg graph (frame_store _ _ _))

theorem options_edited : (s.edited n c order).options = s.options := by
  have hs := congrArg options
    (frame_store { s with graph := s.graph.replaceDependees n c.reads } n c)
  exact (congrArg options (frame_refreshAll _ _)).trans hs

theorem put_of_ok (h : (s.graph.replaceDependees n c.reads).recalculationOrder n = .ok order) :
    s.put n c = (.ok ⟨order, true⟩, s.edited n c order) := by
  rw [put]
  dsimp only
  rw [h]
  rfl

/-- A rejected edit puts back every pair of the graph. -/
theorem put_of_error (hg : s.graph.Represents pairs) {e : CircularDependency}
    (h : (s.graph.replaceDependees n c.reads).recalculationOrder n = .error e) :
    s.put n c = (.error (.circular n e.cycle), s) := by
  rw [put]
  dsimp only
  rw [h]
  dsimp only
  rw [hg.replaceDependees_restore]

/-- What every edit keeps: the graph holds what the formulas read, no cell depends on itself, and
all cells are settled. -/
structure Coherent (s : Sheet) : Prop where
  represents : ∃ pairs, s.graph.Represents pairs
  precedes_iff : ∀ a b, s.graph.Precedes a b ↔ s.content?.Reads b a
  acyclic : s.graph.Acyclic
  settled : ∀ t, s.Settled t

theorem coherent_empty (options : Options) : Coherent { options } where
  represents := ⟨∅, Graph.represents_empty⟩
  precedes_iff a b := by
    simp [Graph.represents_empty.precedes_iff, Contents.Reads, content?]
  acyclic n hn := by
    obtain ⟨b, hb, -⟩ := TransGen.head'_iff.1 hn
    simp [Graph.represents_empty.precedes_iff] at hb
  settled t f v hf := by simp at hf

theorem Coherent.precedes_eq (h : s.Coherent) : s.graph.Precedes = s.content?.ReadBy :=
  funext₂ fun a b => propext (h.precedes_iff a b)

theorem Coherent.precedes_replaceDependees (h : s.Coherent) (n : String) (c : Content) :
    (s.graph.replaceDependees n c.reads).Precedes =
      Contents.ReadBy (Function.update s.content? n c.stored) := by
  obtain ⟨pairs, hp⟩ := h.represents
  funext a b
  rw [hp.precedes_replaceDependees_iff, h.precedes_iff]
  exact propext Contents.reads_update_iff.symm

theorem Coherent.edited (h : s.Coherent)
    (ho : (s.graph.replaceDependees n c.reads).recalculationOrder n = .ok order) :
    (s.edited n c order).Coherent := by
  obtain ⟨pairs, hp⟩ := h.represents
  have hacyclic := hp.acyclic_of_recalculationOrder h.acyclic ho
  have hreads := h.precedes_replaceDependees n c
  -- The edited cell comes first and is computed when it is stored, so the rest is what is left.
  obtain ⟨rest, rfl⟩ := List.head?_eq_some_iff.1 (Graph.recalculationOrder_head ho)
  have hordered := Graph.recalculationOrder_ordered ho
  refine ⟨⟨_, graph_edited ▸ hp.replaceDependees n c.reads⟩, ?_, graph_edited ▸ hacyclic, ?_⟩
  · rw [graph_edited, content?_edited, hreads]
    exact fun a b => Iff.rfl
  · refine settled_refreshAll ?_ fun t ht => ?_
    · rw [content?_store]
      exact hreads ▸ hordered.2.2
    · by_cases he : t = n
      · rw [he]
        refine settled_store fun hn => ?_
        have hloop := (hp.precedes_replaceDependees_iff n c.reads).2 (.inr ⟨rfl, hn⟩)
        exact hacyclic n (.single hloop)
      · refine (h.settled t).frame (fun a => getElem?_store_of_ne) he fun hr => ?_
        rw [content?_store] at hr
        exact ht (hordered.2.1 t (hreads ▸ hr))

end FormulaSheet.Sheet
