import FormulaSheet.Graph.Walk
import FormulaSheet.Proofs.Graph.Cycle

namespace FormulaSheet
open Relation

variable {r : String → String → Prop} {n m : String} {names : List String}

/-- Each name stands once, and all that it is related to is listed after it. -/
def Ordered (r : String → String → Prop) : List String → Prop
  | [] => True
  | n :: names => n ∉ names ∧ (∀ m, r n m → m ∈ names) ∧ Ordered r names

theorem Ordered.mem (h : Ordered r names) (hn : n ∈ names) (hr : r n m) : m ∈ names := by
  induction names with
  | nil => simp at hn
  | cons a names ih =>
    obtain ⟨-, ha, hs⟩ := h
    rcases List.mem_cons.1 hn with rfl | hn
    · exact List.mem_cons_of_mem _ (ha m hr)
    · exact List.mem_cons_of_mem _ (ih hs hn)

theorem Ordered.mem_of_reach (h : Ordered r names) (hn : n ∈ names) (hr : ReflTransGen r n m) :
    m ∈ names := by
  induction hr with
  | refl => exact hn
  | tail _ hr ih => exact h.mem ih hr

theorem Ordered.not_transGen (h : Ordered r names) (hn : n ∈ names) : ¬TransGen r n n := by
  induction names with
  | nil => simp at hn
  | cons a names ih =>
    obtain ⟨ha, hs, ho⟩ := h
    rcases List.mem_cons.1 hn with rfl | hn
    · intro hr
      obtain ⟨b, hb, hr⟩ := TransGen.head'_iff.1 hr
      exact ha (ho.mem_of_reach (hs b hb) hr)
    · exact ih ho hn

namespace Graph

variable {g : Graph} {start name child : String} {unexplored : Adjacency}
  {marks : Std.ExtTreeMap String Mark} {finished children order : List String}
  {stack : List Frame}

/-- Each dependent of a name on the stack is still to be looked at or known: the names above are
known, besides those given. -/
def Met (g : Graph) (known : List String) : List Frame → Prop
  | [] => True
  | f :: stack =>
    (∀ t, g.Precedes f.name t → t ∈ f.children ∨ t ∈ known) ∧ g.Met (f.name :: known) stack

theorem Met.mono {known known' : List String} (h : g.Met known stack) (hk : known ⊆ known') :
    g.Met known' stack := by
  induction stack generalizing known known' with
  | nil => trivial
  | cons f stack ih =>
    exact ⟨fun t ht => (h.1 t ht).imp_right fun hm => hk hm, ih h.2 (List.cons_subset_cons _ hk)⟩

/-- What holds at every step of the walk from `start`. -/
structure Walking (g : Graph) (start : String) (unexplored : Adjacency)
    (marks : Std.ExtTreeMap String Mark) (finished : List String) (stack : List Frame) : Prop where
  fresh : ∀ n, marks[n]? = none → unexplored.neighbours n = g.dependents n
  done_iff : ∀ n, marks[n]? = some .done ↔ n ∈ finished
  inProgress_iff : ∀ n, marks[n]? = some .inProgress ↔ n ∈ stack.map Frame.name
  nodup : (stack.map Frame.name).Nodup
  path : (stack.map Frame.name).IsChain fun t s => g.Precedes s t
  children : ∀ f ∈ stack, ∀ t ∈ f.children, g.Precedes f.name t
  met : g.Met finished stack
  ordered : Ordered g.Precedes finished
  root : ((stack.map Frame.name).reverse ++ finished).head? = some start
  reached : ∀ n, marks[n]? ≠ none → ReflTransGen g.Precedes start n

theorem unmarked_of_insert {n : String} {mark : Mark} (h : (marks.insert name mark)[n]? = none) :
    n ≠ name ∧ marks[n]? = none := by
  rw [Std.ExtTreeMap.getElem?_insert] at h
  split at h
  · simp at h
  · next hn => exact ⟨fun he => hn (by simp [he]), h⟩

theorem walking_start : g.Walking start (g.forward.erase start)
    ((∅ : Std.ExtTreeMap String Mark).insert start .inProgress) []
    [⟨start, (g.dependents start).toList⟩] where
  fresh n hn := Adjacency.neighbours_erase_of_ne (unmarked_of_insert hn).1
  done_iff n := by
    rw [Std.ExtTreeMap.getElem?_insert]
    split <;> simp
  inProgress_iff n := by
    rw [Std.ExtTreeMap.getElem?_insert]
    simp [@eq_comm _ n start]
  nodup := List.nodup_singleton _
  path := List.IsChain.singleton _
  children f hf t ht := by
    rw [List.mem_singleton.1 hf] at ht ⊢
    exact Std.ExtTreeSet.mem_toList.1 ht
  met := ⟨fun t ht => .inl (Std.ExtTreeSet.mem_toList.2 ht), trivial⟩
  ordered := trivial
  root := rfl
  reached n hn := by
    rw [Std.ExtTreeMap.getElem?_insert] at hn
    by_cases h : start = n
    · rw [h]
    · simp [h] at hn

theorem Walking.finish (h : g.Walking start unexplored marks finished (⟨name, []⟩ :: stack)) :
    g.Walking start unexplored (marks.insert name .done) (name :: finished) stack := by
  have hname : marks[name]? = some .inProgress := (h.inProgress_iff name).2 (by simp)
  have hnodup := List.nodup_cons.1 h.nodup
  refine ⟨?_, ?_, ?_, hnodup.2, h.path.tail, ?_, h.met.2, ⟨?_, ?_, h.ordered⟩, ?_, ?_⟩
  · exact fun n hn => h.fresh n (unmarked_of_insert hn).2
  · intro n
    rw [Std.ExtTreeMap.getElem?_insert, List.mem_cons, ← h.done_iff]
    by_cases hn : name = n
    · simp [hn]
    · simp [hn, Ne.symm hn]
  · intro n
    have hi := h.inProgress_iff n
    rw [Std.ExtTreeMap.getElem?_insert]
    by_cases hn : name = n
    · subst hn
      simpa using hnodup.1
    · simpa [hn, Ne.symm hn] using hi
  · exact fun f hf => h.children f (List.mem_cons_of_mem _ hf)
  -- The frame has no children left, so all dependents of its name are finished.
  · rw [← h.done_iff, hname]
    simp
  · intro t ht
    simpa using h.met.1 t ht
  · simpa using h.root
  · intro n hn
    rw [Std.ExtTreeMap.getElem?_insert] at hn
    by_cases hname' : name = n
    · exact hname' ▸ h.reached name (by simp [hname])
    · exact h.reached n (by simpa [hname'] using hn)

theorem Walking.skip
    (h : g.Walking start unexplored marks finished (⟨name, child :: children⟩ :: stack))
    (hc : marks[child]? = some .done) :
    g.Walking start unexplored marks finished (⟨name, children⟩ :: stack) where
  __ := h
  inProgress_iff := h.inProgress_iff
  nodup := h.nodup
  path := h.path
  children f hf t ht := by
    rcases List.mem_cons.1 hf with rfl | hf
    · exact h.children _ List.mem_cons_self t (List.mem_cons_of_mem _ ht)
    · exact h.children f (List.mem_cons_of_mem _ hf) t ht
  met := by
    refine ⟨fun t ht => ?_, h.met.2⟩
    rcases h.met.1 t ht with ht | ht
    · rcases List.mem_cons.1 ht with rfl | ht
      · exact .inr ((h.done_iff t).1 hc)
      · exact .inl ht
    · exact .inr ht
  root := h.root

theorem Walking.enter
    (h : g.Walking start unexplored marks finished (⟨name, child :: children⟩ :: stack))
    (hc : marks[child]? = none) :
    g.Walking start (unexplored.erase child) (marks.insert child .inProgress) finished
      (⟨child, (unexplored.neighbours child).toList⟩ :: ⟨name, children⟩ :: stack) := by
  have hname : marks[name]? = some .inProgress := (h.inProgress_iff name).2 (by simp)
  have hchild : g.Precedes name child := h.children _ List.mem_cons_self child List.mem_cons_self
  have hnew : child ∉ name :: stack.map Frame.name := by
    intro hm
    simp [(h.inProgress_iff child).2 hm] at hc
  rw [h.fresh child hc]
  refine ⟨?_, ?_, ?_, List.nodup_cons.2 ⟨hnew, h.nodup⟩, h.path.cons_cons hchild, ?_,
    ⟨fun t ht => .inl (Std.ExtTreeSet.mem_toList.2 ht), ?_, ?_⟩, h.ordered, ?_, ?_⟩
  · intro n hn
    obtain ⟨hne, hn⟩ := unmarked_of_insert hn
    rw [← h.fresh n hn]
    exact Adjacency.neighbours_erase_of_ne hne
  · intro n
    rw [Std.ExtTreeMap.getElem?_insert]
    by_cases hn : child = n
    · subst hn
      simp [← h.done_iff, hc]
    · simpa [hn] using h.done_iff n
  · intro n
    rw [Std.ExtTreeMap.getElem?_insert, List.map_cons, List.mem_cons]
    by_cases hn : child = n
    · simp [hn]
    · simpa [hn, Ne.symm hn] using h.inProgress_iff n
  · intro f hf t ht
    rcases List.mem_cons.1 hf with rfl | hf
    · exact Std.ExtTreeSet.mem_toList.1 ht
    · rcases List.mem_cons.1 hf with rfl | hf
      · exact h.children _ List.mem_cons_self t (List.mem_cons_of_mem _ ht)
      · exact h.children f (List.mem_cons_of_mem _ hf) t ht
  -- The child is not finished yet, but it is above on the stack from now on.
  · intro t ht
    rcases h.met.1 t ht with ht | ht
    · rcases List.mem_cons.1 ht with rfl | ht
      · exact .inr List.mem_cons_self
      · exact .inl ht
    · exact .inr (List.mem_cons_of_mem _ ht)
  · exact h.met.2.mono (List.cons_subset_cons _ (List.subset_cons_self _ _))
  · simpa using h.root
  · intro n hn
    rw [Std.ExtTreeMap.getElem?_insert] at hn
    by_cases hne : child = n
    · exact hne ▸ (h.reached name (by simp [hname])).tail hchild
    · exact h.reached n (by simpa [hne] using hn)

/-- Among the names on the stack, only the lowest can be the start. -/
theorem Walking.getLast_stack (h : g.Walking start unexplored marks finished stack)
    (hs : stack ≠ []) : (stack.map Frame.name).getLast? = some start := by
  have hr := h.root
  rw [List.head?_append_of_ne_nil _ (by simpa using hs), List.head?_reverse] at hr
  exact hr

/-- The cycle that is answered leads from the name up to the top of the stack. -/
theorem cycleAt_eq (stack : List Frame) {above below : List String}
    (hs : stack.map Frame.name = above ++ child :: below) (hc : child ∉ above) :
    cycleAt child stack = child :: (above.reverse ++ [child]) := by
  have hw : ∀ a ∈ above, decide (a ≠ child) = true := by
    intro a ha
    simpa using ne_of_mem_of_not_mem ha hc
  rw [cycleAt, hs, List.takeWhile_append_of_pos hw]
  simp

/-- What the walk answers when it meets a name that it is still at: a loop, and one on which the
start can only be the name where it was entered. -/
theorem Walking.loop
    (h : g.Walking start unexplored marks finished (⟨name, child :: children⟩ :: stack))
    (hc : marks[child]? = some .inProgress) :
    Loop g.Precedes child (cycleAt child (⟨name, children⟩ :: stack)) ∧
      ReflTransGen g.Precedes start child ∧
      (start ∈ cycleAt child (⟨name, children⟩ :: stack) → child = start) := by
  have hmem : child ∈ name :: stack.map Frame.name := (h.inProgress_iff child).1 hc
  have hlast := h.getLast_stack (List.cons_ne_nil _ _)
  have hnodup := h.nodup
  have hpath := h.path
  obtain ⟨above, below, hsplit, hnot⟩ := List.eq_append_cons_of_mem hmem
  -- The names above the child lead up from it, and the top has it among its dependents.
  rw [List.map_cons, hsplit] at hlast hnodup hpath
  rw [cycleAt_eq (⟨name, children⟩ :: stack) hsplit hnot]
  refine ⟨loop_of_back hnodup hpath ?_, h.reached child (by simp [hc]), ?_⟩
  · rw [← hsplit]
    rintro a ⟨⟩
    exact h.children _ List.mem_cons_self child List.mem_cons_self
  · intro hs
    have hlow : start ∈ child :: below := by
      rw [List.getLast?_append_of_ne_nil _ (List.cons_ne_nil _ _)] at hlast
      exact List.mem_of_getLast? hlast
    have habove : start ∉ above := fun ha => (List.disjoint_of_nodup_append hnodup) ha hlow
    simpa [habove, eq_comm] using hs

/-- What a walk from `start` may answer: the names that can be reached, in order, or a loop that
can be reached. -/
def Answers (g : Graph) (start : String) : Except CircularDependency (List String) → Prop
  | .ok order => order.head? = some start ∧ Ordered g.Precedes order ∧
      ∀ n ∈ order, ReflTransGen g.Precedes start n
  | .error e => ∃ n, Loop g.Precedes n e.cycle ∧ ReflTransGen g.Precedes start n ∧
      (start ∈ e.cycle → n = start)

theorem Walking.answers (h : g.Walking start unexplored marks finished stack) :
    g.Answers start (walk unexplored marks finished stack) := by
  fun_induction walk unexplored marks finished stack with
  | case1 unexplored marks finished =>
    refine ⟨by simpa using h.root, h.ordered, fun n hn => h.reached n ?_⟩
    simp [(h.done_iff n).2 hn]
  | case2 unexplored marks finished name stack ih => exact ih h.finish
  | case3 unexplored marks finished name child children stack hc ih => exact ih (h.skip hc)
  | case4 unexplored marks finished name child children stack hc =>
    obtain ⟨hl, hr, hs⟩ := h.loop hc
    exact ⟨child, hl, hr, hs⟩
  | case5 unexplored marks finished name child children stack hc ih => exact ih (h.enter hc)

theorem answers_recalculationOrder (g : Graph) (start : String) :
    g.Answers start (g.recalculationOrder start) := walking_start.answers

/-- Two walks go hand in hand as long as the graphs agree on what the first can reach. -/
theorem Walking.walk_congr {g' : Graph} {unexplored' : Adjacency}
    (h : g.Walking start unexplored marks finished stack)
    (hg : ∀ n, ReflTransGen g.Precedes start n → g'.dependents n = g.dependents n)
    (hu : ∀ n, marks[n]? = none → unexplored'.neighbours n = g'.dependents n) :
    walk unexplored' marks finished stack = walk unexplored marks finished stack := by
  fun_induction walk unexplored marks finished stack generalizing unexplored' with
  | case1 unexplored marks finished => rw [walk]
  | case2 unexplored marks finished name stack ih =>
    rw [walk]
    exact ih h.finish fun n hn => hu n (unmarked_of_insert hn).2
  | case3 unexplored marks finished name child children stack hc ih =>
    rw [walk, hc]
    exact ih (h.skip hc) hu
  | case4 unexplored marks finished name child children stack hc => rw [walk, hc]
  | case5 unexplored marks finished name child children stack hc ih =>
    have hreach : ReflTransGen g.Precedes start child := (h.enter hc).reached child (by simp)
    rw [walk, hc]
    dsimp only
    rw [hu child hc, hg child hreach, ← h.fresh child hc]
    refine ih (h.enter hc) fun n hn => ?_
    obtain ⟨hne, hn⟩ := unmarked_of_insert hn
    rw [Adjacency.neighbours_erase_of_ne hne]
    exact hu n hn

/-- The order depends only on what can be reached from the start. -/
theorem recalculationOrder_congr {g' : Graph}
    (h : ∀ n, ReflTransGen g.Precedes start n → g'.dependents n = g.dependents n) :
    g'.recalculationOrder start = g.recalculationOrder start := by
  rw [recalculationOrder, h start ReflTransGen.refl]
  exact walking_start.walk_congr h fun n hn =>
    Adjacency.neighbours_erase_of_ne (unmarked_of_insert hn).1

theorem recalculationOrder_head (h : g.recalculationOrder start = .ok order) :
    order.head? = some start := by
  have ha := g.answers_recalculationOrder start
  rw [h] at ha
  exact ha.1

theorem recalculationOrder_ordered (h : g.recalculationOrder start = .ok order) :
    Ordered g.Precedes order := by
  have ha := g.answers_recalculationOrder start
  rw [h] at ha
  exact ha.2.1

theorem mem_recalculationOrder_iff (h : g.recalculationOrder start = .ok order) :
    n ∈ order ↔ ReflTransGen g.Precedes start n := by
  have ha := g.answers_recalculationOrder start
  rw [h] at ha
  refine ⟨ha.2.2 n, ha.2.1.mem_of_reach ?_⟩
  exact List.mem_of_head? ha.1

theorem recalculationOrder_loop {e : CircularDependency}
    (h : g.recalculationOrder start = .error e) : ∃ n, Loop g.Precedes n e.cycle ∧
      ReflTransGen g.Precedes start n ∧ (start ∈ e.cycle → n = start) := by
  have ha := g.answers_recalculationOrder start
  rw [h] at ha
  exact ha

/-- There is an order unless the walk can come to a name that depends on itself. -/
theorem exists_recalculationOrder_iff : (∃ order, g.recalculationOrder start = .ok order) ↔
    ∀ n, ReflTransGen g.Precedes start n → ¬TransGen g.Precedes n n := by
  constructor
  · rintro ⟨order, h⟩ n hn
    exact (recalculationOrder_ordered h).not_transGen ((mem_recalculationOrder_iff h).2 hn)
  · intro h
    cases hw : g.recalculationOrder start with
    | ok order => exact ⟨order, rfl⟩
    | error e =>
      obtain ⟨n, hl, hr, -⟩ := recalculationOrder_loop hw
      exact absurd hl.transGen (h n hr)

theorem Acyclic.exists_recalculationOrder (h : g.Acyclic) (start : String) :
    ∃ order, g.recalculationOrder start = .ok order :=
  exists_recalculationOrder_iff.2 fun n _ => h n

end Graph

end FormulaSheet
