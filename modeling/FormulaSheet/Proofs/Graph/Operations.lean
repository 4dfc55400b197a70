import FormulaSheet.Proofs.Graph.Pairs

namespace FormulaSheet.Graph

variable {g : Graph} {pairs : Finset (String × String)} {s t : String}

def transpose (g : Graph) : Graph := ⟨g.backward, g.forward, g.size⟩

theorem mem_image_swap : (s, t) ∈ pairs.image Prod.swap ↔ (t, s) ∈ pairs := by
  show Prod.swap (t, s) ∈ pairs.image Prod.swap ↔ (t, s) ∈ pairs
  exact Prod.swap_injective.mem_finset_image

theorem Represents.transpose (h : g.Represents pairs) :
    g.transpose.Represents (pairs.image Prod.swap) where
  mem_dependents s t := by
    rw [mem_image_swap]
    exact h.mem_dependees t s
  mem_dependees s t := by
    rw [mem_image_swap]
    exact h.mem_dependents t s
  tight_forward := h.tight_backward
  tight_backward := h.tight_forward
  size_eq := by
    rw [Finset.card_image_of_injective _ Prod.swap_injective]
    exact h.size_eq

theorem image_swap_filter (p : String → Prop) [DecidablePred p] :
    ((pairs.image Prod.swap).filter (p ·.2)).image Prod.swap = pairs.filter (p ·.1) := by
  ext ⟨a, b⟩
  simp only [mem_image_swap, Finset.mem_filter]

theorem Represents.size_dependents (h : g.Represents pairs) (s : String) :
    (g.dependents s).size = (pairs.filter (·.1 = s)).card := by
  rw [← image_swap_filter (· = s), Finset.card_image_of_injective _ Prod.swap_injective]
  exact h.transpose.size_dependees s

theorem Represents.removeDependents (h : g.Represents pairs) (s : String) :
    (g.removeDependents s).Represents (pairs.filter (·.1 ≠ s)) := by
  rw [← image_swap_filter (· ≠ s)]
  exact (h.transpose.removeDependees s).transpose

theorem Represents.replaceDependents (h : g.Represents pairs) (s : String) (ts : List String) :
    (g.replaceDependents s ts).Represents
      (pairs.filter (·.1 ≠ s) ∪ ts.toFinset.image (s, ·)) :=
  (h.removeDependents s).addAll (s, ·) ts

theorem Represents.remove (h : g.Represents pairs) (s t : String) :
    (g.remove s t).Represents (pairs.erase (s, t)) := by
  unfold Graph.remove
  split
  · next ht =>
    have hp : (s, t) ∈ pairs := (h.mem_dependents s t).1 ht
    constructor
    · intro a b
      have := h.mem_dependents a b
      simp_all [dependents, Adjacency.mem_neighbours_unlink]
    · intro a b
      have := h.mem_dependees a b
      simp_all [dependees, Adjacency.mem_neighbours_unlink, and_comm]
    · exact h.tight_forward.unlink
    · exact h.tight_backward.unlink
    · rw [Finset.card_erase_of_mem hp, h.size_eq]
  · next ht =>
    have hp : (s, t) ∉ pairs := fun hp => ht ((h.mem_dependents s t).2 hp)
    rwa [Finset.erase_eq_of_notMem hp]

inductive Operation where
  | add (s t : String)
  | remove (s t : String)
  | replaceDependents (s : String) (ts : List String)
  | replaceDependees (t : String) (ss : List String)

def Operation.apply (g : Graph) : Operation → Graph
  | add s t => g.add s t
  | remove s t => g.remove s t
  | replaceDependents s ts => g.replaceDependents s ts
  | replaceDependees t ss => g.replaceDependees t ss

def Operation.applyPairs (pairs : Finset (String × String)) :
    Operation → Finset (String × String)
  | add s t => insert (s, t) pairs
  | remove s t => pairs.erase (s, t)
  | replaceDependents s ts => pairs.filter (·.1 ≠ s) ∪ ts.toFinset.image (s, ·)
  | replaceDependees t ss => pairs.filter (·.2 ≠ t) ∪ ss.toFinset.image (·, t)

def build (ops : List Operation) : Graph := ops.foldl Operation.apply {}

def buildPairs (ops : List Operation) : Finset (String × String) :=
  ops.foldl Operation.applyPairs ∅

theorem Represents.apply (h : g.Represents pairs) (op : Operation) :
    (op.apply g).Represents (op.applyPairs pairs) := by
  cases op with
  | add s t => exact h.add s t
  | remove s t => exact h.remove s t
  | replaceDependents s ts => exact h.replaceDependents s ts
  | replaceDependees t ss => exact h.replaceDependees t ss

theorem Represents.applyAll (h : g.Represents pairs) (ops : List Operation) :
    (ops.foldl Operation.apply g).Represents (ops.foldl Operation.applyPairs pairs) := by
  induction ops generalizing g pairs with
  | nil => exact h
  | cons op ops ih => exact ih (h.apply op)

theorem represents_build (ops : List Operation) : (build ops).Represents (buildPairs ops) :=
  represents_empty.applyAll ops

theorem not_isEmpty_iff (names : Std.ExtTreeSet String) :
    (!names.isEmpty) = true ↔ ∃ n, n ∈ names := by
  rw [Bool.not_eq_true', ← Bool.not_eq_true, Std.ExtTreeSet.isEmpty_iff,
    Std.ExtTreeSet.eq_empty_iff_forall_not_mem]
  push Not
  rfl

/-- All answers of a graph are those of a set of pairs, and whatever an operation takes from the
counter is there. -/
structure Mirrors (g : Graph) (pairs : Finset (String × String)) : Prop
    extends g.Represents pairs where
  nodup_dependents : ∀ s, (g.dependents s).toList.Nodup
  nodup_dependees : ∀ t, (g.dependees t).toList.Nodup
  dependeeCount_eq : ∀ t, g.dependeeCount t = (pairs.filter (·.2 = t)).card
  hasDependents_iff : ∀ s, g.hasDependents s ↔ ∃ t, (s, t) ∈ pairs
  hasDependees_iff : ∀ t, g.hasDependees t ↔ ∃ s, (s, t) ∈ pairs
  one_le_size : ∀ s t, t ∈ g.dependents s → 1 ≤ g.size
  size_dependents_le : ∀ s, (g.dependents s).size ≤ g.size
  size_dependees_le : ∀ t, (g.dependees t).size ≤ g.size

theorem Represents.mirrors (h : g.Represents pairs) : g.Mirrors pairs where
  toRepresents := h
  nodup_dependents s := nodup_toList _
  nodup_dependees t := nodup_toList _
  dependeeCount_eq := h.size_dependees
  hasDependents_iff s := by
    rw [hasDependents, not_isEmpty_iff]
    simp only [h.mem_dependents]
  hasDependees_iff t := by
    rw [hasDependees, not_isEmpty_iff]
    simp only [h.mem_dependees]
  one_le_size s t ht := by
    rw [h.size_eq]
    exact Finset.card_pos.2 ⟨(s, t), (h.mem_dependents s t).1 ht⟩
  size_dependents_le s := by
    rw [h.size_dependents, h.size_eq]
    exact Finset.card_filter_le _ _
  size_dependees_le t := by
    rw [h.size_dependees, h.size_eq]
    exact Finset.card_filter_le _ _

theorem Represents.eq_iff {g' : Graph} {pairs' : Finset (String × String)}
    (h : g.Represents pairs) (h' : g'.Represents pairs') : g = g' ↔ pairs = pairs' := by
  constructor
  · rintro rfl
    ext ⟨a, b⟩
    rw [← h.mem_dependents, ← h'.mem_dependents]
  · rintro rfl
    exact h.unique h'

/-- A graph is a set of pairs: whatever operations built it, it answers as the set does after the
same operations, and it is equal to every graph that has the same pairs. -/
theorem build_mirrors (ops : List Operation) :
    (build ops).Mirrors (buildPairs ops) ∧
    ∀ ops', build ops = build ops' ↔ buildPairs ops = buildPairs ops' :=
  ⟨(represents_build ops).mirrors,
    fun ops' => (represents_build ops).eq_iff (represents_build ops')⟩

end FormulaSheet.Graph
