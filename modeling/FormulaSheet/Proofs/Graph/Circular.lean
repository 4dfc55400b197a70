import Mathlib
import FormulaSheet.Proofs.Graph.Order

namespace FormulaSheet.Graph
open Relation

variable {g : Graph} {start name child s t : String} {unexplored : Adjacency}
  {marks : Std.ExtTreeMap String Mark} {finished children : List String} {stack : List Frame}

/-- What the walk has before one of its steps. -/
structure Stage where
  marks : Std.ExtTreeMap String Mark
  finished : List String
  stack : List Frame

namespace Stage

def way (stage : Stage) : List String := (stage.stack.map Frame.name).reverse

def first (g : Graph) (start : String) : Stage :=
  ⟨(∅ : Std.ExtTreeMap String Mark).insert start .inProgress, [],
    [⟨start, (g.dependents start).toList⟩]⟩

/-- One step of the walk leads to the answer or to the next stage. The cycle that is answered
begins where the child stands on the way, or at the start if it stood nowhere. -/
def step (g : Graph) (stage : Stage) : Except CircularDependency (List String) ⊕ Stage :=
  match stage with
  | ⟨_, finished, []⟩ => .inl (.ok finished)
  | ⟨marks, finished, ⟨name, []⟩ :: stack⟩ =>
    .inr ⟨marks.insert name .done, name :: finished, stack⟩
  | ⟨marks, finished, ⟨name, child :: children⟩ :: stack⟩ =>
    match marks[child]? with
    | some .done => .inr ⟨marks, finished, ⟨name, children⟩ :: stack⟩
    | some .inProgress =>
      .inl (.error ⟨stage.way.drop ((stage.way.idxOf? child).getD 0) ++ [child]⟩)
    | none =>
      .inr ⟨marks.insert child .inProgress, finished,
        ⟨child, (g.dependents child).toList⟩ :: ⟨name, children⟩ :: stack⟩

def Next (g : Graph) (a b : Stage) : Prop := a.step g = .inr b

end Stage

def Reaches (g : Graph) (start : String) (stage : Stage) : Prop :=
  ReflTransGen (Stage.Next g) (.first g start) stage

theorem Walking.next {stage stage' : Stage}
    (h : g.Walking start unexplored stage.marks stage.finished stage.stack)
    (hs : stage.Next g stage') :
    ∃ unexplored', g.Walking start unexplored' stage'.marks stage'.finished stage'.stack := by
  unfold Stage.Next Stage.step at hs
  split at hs
  · cases hs
  · cases hs
    exact ⟨unexplored, h.finish⟩
  · split at hs
    · next hc =>
      cases hs
      exact ⟨unexplored, h.skip hc⟩
    · cases hs
    · next child _ _ _ hc =>
      cases hs
      rw [← h.fresh child hc]
      exact ⟨unexplored.erase child, h.enter hc⟩

theorem Reaches.walking {stage : Stage} (h : g.Reaches start stage) :
    ∃ unexplored, g.Walking start unexplored stage.marks stage.finished stage.stack := by
  induction h with
  | refl => exact ⟨_, walking_start⟩
  | tail _ hs ih =>
    obtain ⟨unexplored, h⟩ := ih
    exact h.next hs

/-- A name that is in progress has a place on the way, so the start never stands in for it. -/
theorem Reaches.exists_idxOf? {stage : Stage} (h : g.Reaches start stage)
    (hc : stage.marks[child]? = some .inProgress) : ∃ i, stage.way.idxOf? child = some i := by
  obtain ⟨unexplored, hw⟩ := h.walking
  rw [← Option.isSome_iff_exists, List.isSome_idxOf?]
  exact List.mem_reverse.2 ((hw.inProgress_iff child).1 hc)

/-- The rest of the way, from the place of the child on, closes the cycle. -/
theorem drop_way_eq (stage : Stage) (hn : (stage.stack.map Frame.name).Nodup)
    (hc : child ∈ stage.stack.map Frame.name) :
    stage.way.drop ((stage.way.idxOf? child).getD 0) ++ [child] = cycleAt child stage.stack := by
  obtain ⟨above, below, hs, hnot⟩ := List.eq_append_cons_of_mem hc
  have hw : stage.way = below.reverse ++ child :: above.reverse := by
    rw [Stage.way, hs, List.reverse_append, List.reverse_cons, List.append_assoc]
    rfl
  have hbelow : child ∉ below.reverse := by
    rw [hs] at hn
    simpa using (List.nodup_cons.1 (List.nodup_append.1 hn).2.1).1
  have hi : stage.way.idxOf? child = some below.reverse.length := by
    rw [hw, List.idxOf?, List.findIdx?_append]
    have hnone : below.reverse.findIdx? (· == child) = none := by
      rw [List.findIdx?_eq_none_iff]
      intro a ha
      simpa using ne_of_mem_of_not_mem ha hbelow
    rw [hnone, List.findIdx?_cons]
    simp
  rw [hi, hw, cycleAt_eq stage.stack hs hnot, Option.getD_some, List.drop_left]
  rfl

/-- The steps from a stage come to an end, with the answer of the walk. -/
theorem Walking.ends (h : g.Walking start unexplored marks finished stack) :
    ∃ last, ReflTransGen (Stage.Next g) ⟨marks, finished, stack⟩ last ∧
      last.step g = .inl (walk unexplored marks finished stack) := by
  fun_induction walk unexplored marks finished stack with
  | case1 unexplored marks finished => exact ⟨_, .refl, rfl⟩
  | case2 unexplored marks finished name stack ih =>
    obtain ⟨last, hl, ha⟩ := ih h.finish
    exact ⟨last, .head rfl hl, ha⟩
  | case3 unexplored marks finished name child children stack hc ih =>
    obtain ⟨last, hl, ha⟩ := ih (h.skip hc)
    refine ⟨last, .head ?_ hl, ha⟩
    simp only [Stage.Next, Stage.step, hc]
  | case4 unexplored marks finished name child children stack hc =>
    refine ⟨_, .refl, ?_⟩
    have hd := drop_way_eq ⟨marks, finished, ⟨name, child :: children⟩ :: stack⟩ h.nodup
      ((h.inProgress_iff child).1 hc)
    simp only [Stage.step, hc]
    rw [hd]
    rfl
  | case5 unexplored marks finished name child children stack hc ih =>
    obtain ⟨last, hl, ha⟩ := ih (h.enter hc)
    refine ⟨last, .head ?_ hl, ha⟩
    simp only [Stage.Next, Stage.step, hc, h.fresh child hc]

def HasPair (g : Graph) (s t : String) : Prop := (s, t) ∈ g.pairs

theorem hasPair_eq (g : Graph) : g.HasPair = g.Precedes := by
  funext s t
  simp only [HasPair, pairs, Precedes, dependents, Adjacency.neighbours_eq, List.mem_flatMap,
    List.mem_map, Prod.mk.injEq, eq_iff_iff]
  constructor
  · rintro ⟨⟨a, ts⟩, ha, b, hb, rfl, rfl⟩
    rw [Std.ExtTreeMap.mem_toList_iff_getElem?_eq_some.1 ha]
    exact Std.ExtTreeSet.mem_toList.1 hb
  · intro ht
    cases hs : g.forward[s]? with
    | none => simp [hs] at ht
    | some ts =>
      rw [hs] at ht
      exact ⟨(s, ts), Std.ExtTreeMap.mem_toList_iff_getElem?_eq_some.2 hs, t,
        Std.ExtTreeSet.mem_toList.2 ht, rfl, rfl⟩

/-- The walk ends, with a cycle exactly if it can come to one: the names of the cycle are listed
from one of them back to it, each once, and all can be reached from the start. A name that is met
again always has its place on the way. -/
theorem recalculationOrder_error_iff (g : Graph) (start : String) :
    (∃ last, g.Reaches start last ∧ last.step g = .inl (g.recalculationOrder start)) ∧
    (∀ stage name, g.Reaches start stage → stage.marks[name]? = some .inProgress →
      ∃ i, stage.way.idxOf? name = some i) ∧
    ((∃ e, g.recalculationOrder start = .error e) ↔
      ∃ n, ReflTransGen g.HasPair start n ∧ TransGen g.HasPair n n) ∧
    ∀ e, g.recalculationOrder start = .error e →
      (∃ n, Loop g.HasPair n e.cycle) ∧ ∀ n ∈ e.cycle, ReflTransGen g.HasPair start n := by
  rw [hasPair_eq]
  refine ⟨walking_start.ends, fun _ _ h hn => h.exists_idxOf? hn, ?_, fun e he => ?_⟩
  · rw [← not_iff_not]
    push Not
    rw [← exists_recalculationOrder_iff]
    cases g.recalculationOrder start <;> simp
  · obtain ⟨n, hl, hr, -⟩ := recalculationOrder_loop he
    exact ⟨⟨n, hl⟩, fun m hm => hr.trans (hl.reach hm)⟩

/-- The start leads to the cycle and does not stand on it. -/
theorem recalculationOrder_error_downstream :
    ∃ n, Loop (HasPair (((add {} "A1" "B1").add "B1" "C1").add "C1" "B1")) n
      ["B1", "C1", "B1"] := by
  have h : (((add {} "A1" "B1").add "B1" "C1").add "C1" "B1").recalculationOrder "A1" =
      .error ⟨["B1", "C1", "B1"]⟩ := by cbv
  exact ((recalculationOrder_error_iff _ "A1").2.2.2 _ h).1

end FormulaSheet.Graph
