import Mathlib
import FormulaSheet.Proofs.Graph.Circular
import FormulaSheet.Proofs.Graph.Operations

namespace FormulaSheet.Graph

variable {g : Graph} {pairs : Finset (String × String)} {start name child : String}
  {unexplored : Adjacency} {marks : Std.ExtTreeMap String Mark} {path finished names : List String}
  {stack : List Frame}

def children (pairs : Finset (String × String)) (name : String) : List String :=
  ((pairs.filter (·.1 = name)).image Prod.snd).sort

theorem mem_children_iff : child ∈ children pairs name ↔ (name, child) ∈ pairs := by
  simp [children]

def pairsOff (pairs : Finset (String × String)) (path : List String) : ℕ :=
  (pairs.filter (·.1 ∉ path)).card

/-- A path leaves fewer pairs off it when it goes on to a name that has children. -/
theorem pairsOff_lex (h : name ∉ path) : Prod.Lex (· < ·) (· < ·)
    (pairsOff pairs (path ++ [name]), 2 * (children pairs name).length)
      (pairsOff pairs path, 1) := by
  have hsub : pairs.filter (·.1 ∉ path ++ [name]) ⊆ pairs.filter (·.1 ∉ path) := by
    intro p hp
    simp only [Finset.mem_filter, List.mem_append, not_or] at hp ⊢
    exact ⟨hp.1, hp.2.1⟩
  rcases (Finset.card_le_card hsub).lt_or_eq with hlt | heq
  · exact Prod.Lex.left _ _ hlt
  · have hnone : children pairs name = [] := by
      rw [List.eq_nil_iff_forall_not_mem]
      intro child hc
      have hp : (name, child) ∈ pairs.filter (·.1 ∉ path ++ [name]) := by
        rw [Finset.eq_of_subset_of_card_le hsub heq.ge]
        simp [mem_children_iff.1 hc, h]
      simp at hp
    rw [pairsOff, heq, hnone]
    exact Prod.Lex.right _ Nat.one_pos

mutual

/-- The recursive depth-first search. The path holds the names under way, the first one first, and
the list those that are finished, the latest first: a finished name is skipped, a name on the path
closes a cycle, and any other is finished after its children. -/
def visit (pairs : Finset (String × String)) (path finished : List String) (name : String) :
    Except CircularDependency (List String) :=
  if name ∈ finished then .ok finished
  else if _h : name ∈ path then .error ⟨path.dropWhile (· ≠ name) ++ [name]⟩
  else do
    let finished ← visitAll pairs (path ++ [name]) finished (children pairs name)
    return name :: finished
termination_by (pairsOff pairs path, 1)
decreasing_by exact pairsOff_lex _h

def visitAll (pairs : Finset (String × String)) (path finished : List String) :
    List String → Except CircularDependency (List String)
  | [] => .ok finished
  | name :: names => do
    let finished ← visit pairs path finished name
    visitAll pairs path finished names
termination_by names => (pairsOff pairs path, 2 * names.length)
decreasing_by
  · exact Prod.Lex.right _ (by simp; omega)
  · exact Prod.Lex.right _ (by simp)

end

theorem visit_of_mem_finished (h : name ∈ finished) :
    visit pairs path finished name = .ok finished := by
  rw [visit, if_pos h]

theorem visit_of_mem_path (h : name ∉ finished) (hp : name ∈ path) :
    visit pairs path finished name = .error ⟨path.dropWhile (· ≠ name) ++ [name]⟩ := by
  rw [visit, if_neg h, dif_pos hp]

theorem visit_of_not_mem (h : name ∉ finished) (hp : name ∉ path) :
    visit pairs path finished name =
      visitAll pairs (path ++ [name]) finished (children pairs name) >>= fun finished =>
        .ok (name :: finished) := by
  rw [visit, if_neg h, dif_neg hp]
  rfl

theorem visitAll_nil : visitAll pairs path finished [] = .ok finished := by
  rw [visitAll]

theorem visitAll_cons : visitAll pairs path finished (name :: names) =
    visit pairs path finished name >>= fun finished => visitAll pairs path finished names := by
  rw [visitAll]

section Stack

/-- What the recursion has still to do where the walk has a stack: for each name, the latest first,
the children that are left of it, and then to finish it. -/
def visitStack (pairs : Finset (String × String)) (finished : List String) :
    List Frame → Except CircularDependency (List String)
  | [] => .ok finished
  | f :: stack => do
    let finished ← visitAll pairs ((f :: stack).map Frame.name).reverse finished f.children
    visitStack pairs (f.name :: finished) stack

theorem visitStack_cons (f : Frame) : visitStack pairs finished (f :: stack) =
    visitAll pairs ((f :: stack).map Frame.name).reverse finished f.children >>= fun finished =>
      visitStack pairs (f.name :: finished) stack := by
  rw [visitStack]

theorem visitStack_finish : visitStack pairs finished (⟨name, []⟩ :: stack) =
    visitStack pairs (name :: finished) stack := by
  rw [visitStack_cons, visitAll_nil]
  rfl

theorem visitStack_skip (h : child ∈ finished) :
    visitStack pairs finished (⟨name, child :: names⟩ :: stack) =
      visitStack pairs finished (⟨name, names⟩ :: stack) := by
  rw [visitStack_cons, visitStack_cons, visitAll_cons, visit_of_mem_finished h]
  rfl

theorem visitStack_enter (h : child ∉ finished) (hp : child ∉ name :: stack.map Frame.name) :
    visitStack pairs finished (⟨name, child :: names⟩ :: stack) =
      visitStack pairs finished (⟨child, children pairs child⟩ :: ⟨name, names⟩ :: stack) := by
  have hpath : child ∉ (name :: stack.map Frame.name).reverse := mt List.mem_reverse.1 hp
  simp only [visitStack_cons, List.map_cons]
  rw [visitAll_cons, visit_of_not_mem h hpath, bind_assoc, bind_assoc,
    List.reverse_cons (a := child)]
  rfl

/-- From the repeated name on, the path leads up to the top of the stack. -/
theorem visitStack_cycle (h : child ∉ finished) (hn : (name :: stack.map Frame.name).Nodup)
    (hp : child ∈ name :: stack.map Frame.name) :
    visitStack pairs finished (⟨name, child :: names⟩ :: stack) =
      .error ⟨cycleAt child (⟨name, names⟩ :: stack)⟩ := by
  obtain ⟨above, below, hs, hnot⟩ := List.eq_append_cons_of_mem hp
  have hbelow : ∀ n ∈ below.reverse, decide (n ≠ child) = true := by
    rw [hs] at hn
    have hc := (List.nodup_cons.1 (List.nodup_append.1 hn).2.1).1
    intro n hm
    simpa using ne_of_mem_of_not_mem (List.mem_reverse.1 hm) hc
  have hcycle : (name :: stack.map Frame.name).reverse.dropWhile (· ≠ child) ++ [child] =
      cycleAt child (⟨name, names⟩ :: stack) := by
    rw [cycleAt_eq (⟨name, names⟩ :: stack) hs hnot, hs, List.reverse_append, List.reverse_cons,
      List.append_assoc, List.dropWhile_append_of_pos hbelow]
    simp
  rw [visitStack_cons, visitAll_cons, List.map_cons, visit_of_mem_path h (List.mem_reverse.2 hp),
    hcycle]
  rfl

end Stack

theorem mem_pairs_iff : (name, child) ∈ g.pairs ↔ child ∈ g.dependents name :=
  iff_of_eq (congrFun (congrFun (hasPair_eq g) name) child)

theorem toList_dependents (g : Graph) (name : String) :
    (g.dependents name).toList = children g.pairs.toFinset name := by
  have hnodup : (children g.pairs.toFinset name).Nodup := Finset.sort_nodup _ _
  have hperm : (g.dependents name).toList.Perm (children g.pairs.toFinset name) := by
    rw [List.perm_ext_iff_of_nodup (nodup_toList _) hnodup]
    intro child
    rw [Std.ExtTreeSet.mem_toList, mem_children_iff, List.mem_toFinset, mem_pairs_iff]
  have hle : (g.dependents name).toList.Pairwise fun a b => a ≤ b :=
    Std.ExtTreeSet.ordered_toList.imp fun hab => (compare_lt_iff_lt.1 hab).le
  exact hperm.eq_of_pairwise (fun _ _ _ _ hab hba => le_antisymm hab hba) hle
    (Finset.pairwise_sort _ _)

/-- Each step of the walk does the next part of what is left of the recursion. -/
theorem Walking.walk_eq (h : g.Walking start unexplored marks finished stack) :
    walk unexplored marks finished stack = visitStack g.pairs.toFinset finished stack := by
  fun_induction walk unexplored marks finished stack with
  | case1 unexplored marks finished => rfl
  | case2 unexplored marks finished name stack ih =>
    rw [visitStack_finish]
    exact ih h.finish
  | case3 unexplored marks finished name child names stack hc ih =>
    rw [visitStack_skip ((h.done_iff child).1 hc)]
    exact ih (h.skip hc)
  | case4 unexplored marks finished name child names stack hc =>
    have hnot : child ∉ finished := by
      rw [← h.done_iff, hc]
      simp
    exact (visitStack_cycle hnot h.nodup ((h.inProgress_iff child).1 hc)).symm
  | case5 unexplored marks finished name child names stack hc ih =>
    have hnot : child ∉ finished := by
      rw [← h.done_iff, hc]
      simp
    have hpath : child ∉ name :: stack.map Frame.name := by
      intro hm
      simp [(h.inProgress_iff child).2 hm] at hc
    rw [visitStack_enter hnot hpath, ← toList_dependents, ← h.fresh child hc]
    exact ih (h.enter hc)

/-- The walk with a stack gives the order, or the cycle, of the recursive search over the pairs of
the graph; so it does not matter how the graph came to have these pairs. -/
theorem recalculationOrder_eq_visit (g : Graph) (start : String) :
    g.recalculationOrder start = visit g.pairs.toFinset [] [] start ∧
      ∀ g' : Graph, (∀ s t, (s, t) ∈ g'.pairs ↔ (s, t) ∈ g.pairs) →
        g'.recalculationOrder start = g.recalculationOrder start := by
  have hvisit : ∀ g : Graph,
      g.recalculationOrder start = visit g.pairs.toFinset [] [] start := by
    intro g
    rw [recalculationOrder, walking_start.walk_eq, toList_dependents, visitStack_cons,
      visit_of_not_mem (by simp) (by simp)]
    rfl
  refine ⟨hvisit g, fun g' hp => ?_⟩
  have hsame : g'.pairs.toFinset = g.pairs.toFinset := by
    ext ⟨s, t⟩
    rw [List.mem_toFinset, List.mem_toFinset, hp]
  rw [hvisit, hvisit, hsame]

/-- The pairs are put in one by one or all at once, and one of them is taken out again. -/
theorem recalculationOrder_eq_visit_two :
    (build [.add "A1" "B1", .replaceDependents "B1" ["C1", "A2"],
        .add "C1" "B1"]).recalculationOrder "A1" = .error ⟨["B1", "C1", "B1"]⟩ ∧
      (build [.replaceDependees "B1" ["C1", "A1"], .add "B1" "A2", .add "X1" "A1", .add "B1" "C1",
        .remove "X1" "A1"]).recalculationOrder "A1" = .error ⟨["B1", "C1", "B1"]⟩ := by
  have h : (build [.add "A1" "B1", .replaceDependents "B1" ["C1", "A2"],
      .add "C1" "B1"]).recalculationOrder "A1" = .error ⟨["B1", "C1", "B1"]⟩ := by cbv
  have hp : (build [.add "A1" "B1", .replaceDependents "B1" ["C1", "A2"], .add "C1" "B1"]).pairs =
      [("A1", "B1"), ("B1", "A2"), ("B1", "C1"), ("C1", "B1")] := by cbv
  have hp' : (build [.replaceDependees "B1" ["C1", "A1"], .add "B1" "A2", .add "X1" "A1",
      .add "B1" "C1", .remove "X1" "A1"]).pairs =
      [("A1", "B1"), ("B1", "A2"), ("B1", "C1"), ("C1", "B1")] := by cbv
  refine ⟨h, ?_⟩
  rw [← h]
  exact (recalculationOrder_eq_visit _ "A1").2 _ fun s t => by rw [hp, hp']

end FormulaSheet.Graph
