import FormulaSheet.Graph.Basic
import Mathlib.Data.Finset.Card
import Mathlib.Data.Finset.Prod

namespace FormulaSheet

namespace Adjacency

variable {m m' : Adjacency} {s t a b : String}

def Tight (m : Adjacency) : Prop := ∀ s : String, m[s]? ≠ some (∅ : Std.ExtTreeSet String)

theorem neighbours_eq (m : Adjacency) (s : String) : m.neighbours s = m[s]?.getD ∅ :=
  Std.ExtTreeMap.getD_eq_getD_getElem?

theorem mem_neighbours_link :
    b ∈ (m.link s t).neighbours a ↔ (a = s ∧ b = t) ∨ b ∈ m.neighbours a := by
  rw [neighbours_eq, link, Std.ExtTreeMap.getElem?_insert]
  by_cases h : s = a
  · subst h
    simp [@eq_comm _ t b]
  · simp [h, Ne.symm h, neighbours_eq]

theorem mem_neighbours_erase : b ∈ neighbours (m.erase s) a ↔ a ≠ s ∧ b ∈ m.neighbours a := by
  rw [neighbours_eq, Std.ExtTreeMap.getElem?_erase]
  by_cases h : s = a
  · simp [h]
  · simp [h, Ne.symm h, neighbours_eq]

theorem neighbours_erase_of_ne (h : a ≠ s) : neighbours (m.erase s) a = m.neighbours a := by
  apply Std.ExtTreeSet.ext_mem
  intro b
  rw [mem_neighbours_erase]
  exact and_iff_right h

theorem mem_neighbours_unlink :
    b ∈ (m.unlink s t).neighbours a ↔ ¬(a = s ∧ b = t) ∧ b ∈ m.neighbours a := by
  unfold unlink
  dsimp only
  split
  · next h =>
    -- The set is given up, so `t` was all there was in it.
    have hs : ∀ x, x ∈ m.neighbours s → x = t := by
      intro x hx
      by_contra hxt
      have : x ∈ (m.neighbours s).erase t := by simp [Ne.symm hxt, hx]
      rw [Std.ExtTreeSet.isEmpty_iff.1 h] at this
      exact Std.ExtTreeSet.not_mem_empty this
    rw [mem_neighbours_erase]
    constructor
    · rintro ⟨ha, hb⟩
      exact ⟨fun h => ha h.1, hb⟩
    · rintro ⟨h, hb⟩
      refine ⟨?_, hb⟩
      rintro rfl
      exact h ⟨rfl, hs b hb⟩
  · rw [neighbours_eq, Std.ExtTreeMap.getElem?_insert]
    by_cases h : s = a
    · subst h
      simp [@eq_comm _ t b]
    · simp [h, Ne.symm h, neighbours_eq]

theorem mem_neighbours_unlinkAll (ts : List String) :
    b ∈ neighbours (ts.foldl (fun m t => m.unlink t s) m) a ↔
      ¬(a ∈ ts ∧ b = s) ∧ b ∈ m.neighbours a := by
  induction ts generalizing m with
  | nil => simp
  | cons t ts ih =>
    rw [List.foldl_cons, ih, mem_neighbours_unlink, List.mem_cons]
    tauto

theorem tight_empty : Tight ∅ := by
  intro s
  simp

theorem Tight.link (h : m.Tight) : (m.link s t).Tight := by
  intro a
  rw [Adjacency.link, Std.ExtTreeMap.getElem?_insert]
  split
  · intro he
    have : t ∈ (m.neighbours s).insert t := Std.ExtTreeSet.mem_insert_self
    rw [Option.some.inj he] at this
    exact Std.ExtTreeSet.not_mem_empty this
  · exact h a

theorem Tight.erase (h : m.Tight) : Tight (m.erase s) := by
  intro a
  rw [Std.ExtTreeMap.getElem?_erase]
  split
  · simp
  · exact h a

theorem Tight.unlink (h : m.Tight) : (m.unlink s t).Tight := by
  unfold Adjacency.unlink
  dsimp only
  split
  · exact h.erase
  · next hr =>
    intro a
    rw [Std.ExtTreeMap.getElem?_insert]
    split
    · intro he
      exact hr (Std.ExtTreeSet.isEmpty_iff.2 (Option.some.inj he))
    · exact h a

theorem Tight.unlinkAll (h : m.Tight) (ts : List String) :
    Tight (ts.foldl (fun m t => m.unlink t s) m) := by
  induction ts generalizing m with
  | nil => exact h
  | cons t ts ih => exact ih h.unlink

/-- Without empty sets, the sets alone tell the names that are kept. -/
theorem Tight.getElem?_eq_none_iff (h : m.Tight) : m[s]? = none ↔ m.neighbours s = ∅ := by
  rw [neighbours_eq]
  cases hs : m[s]? with
  | none => simp
  | some ts =>
    have : ts ≠ ∅ := fun he => h s (by rw [hs, he])
    simp [this]

theorem Tight.ext (h : m.Tight) (h' : m'.Tight)
    (he : ∀ s t, t ∈ m.neighbours s ↔ t ∈ m'.neighbours s) : m = m' := by
  apply Std.ExtTreeMap.ext_getElem?
  intro s
  have hs : m.neighbours s = m'.neighbours s := Std.ExtTreeSet.ext_mem (he s)
  cases hm : m[s]? with
  | none => rw [eq_comm, h'.getElem?_eq_none_iff, ← hs, ← h.getElem?_eq_none_iff, hm]
  | some ts =>
    cases hm' : m'[s]? with
    | none =>
      rw [h'.getElem?_eq_none_iff, ← hs, ← h.getElem?_eq_none_iff, hm] at hm'
      exact absurd hm' (by simp)
    | some ts' => simpa [neighbours_eq, hm, hm'] using hs

end Adjacency

theorem nodup_toList (names : Std.ExtTreeSet String) : names.toList.Nodup :=
  Std.ExtTreeSet.distinct_toList.imp fun hne he => hne (by simp [he])

namespace Graph

variable {g g' : Graph} {pairs : Finset (String × String)} {t a b : String} {ss : List String}

/-- A graph stands for a set of pairs if both its indices list them and nothing else, none of them
keeps an empty set, and the counter tells their number. -/
structure Represents (g : Graph) (pairs : Finset (String × String)) : Prop where
  mem_dependents : ∀ s t, t ∈ g.dependents s ↔ (s, t) ∈ pairs
  mem_dependees : ∀ s t, s ∈ g.dependees t ↔ (s, t) ∈ pairs
  tight_forward : g.forward.Tight
  tight_backward : g.backward.Tight
  size_eq : g.size = pairs.card

theorem represents_empty : Represents {} ∅ where
  mem_dependents s t := by simp [dependents, Adjacency.neighbours]
  mem_dependees s t := by simp [dependees, Adjacency.neighbours]
  tight_forward := Adjacency.tight_empty
  tight_backward := Adjacency.tight_empty
  size_eq := rfl

/-- The pairs determine the graph, whatever operations led to it. -/
theorem Represents.unique (h : g.Represents pairs) (h' : g'.Represents pairs) : g = g' := by
  have hf : g.forward = g'.forward := h.tight_forward.ext h'.tight_forward fun s t =>
    (h.mem_dependents s t).trans (h'.mem_dependents s t).symm
  have hb : g.backward = g'.backward := h.tight_backward.ext h'.tight_backward fun t s =>
    (h.mem_dependees s t).trans (h'.mem_dependees s t).symm
  have hs : g.size = g'.size := h.size_eq.trans h'.size_eq.symm
  cases g
  cases g'
  simp_all

theorem Represents.add (h : g.Represents pairs) (s t : String) :
    (g.add s t).Represents (insert (s, t) pairs) := by
  unfold Graph.add
  split
  · next ht => rwa [Finset.insert_eq_of_mem ((h.mem_dependents s t).1 ht)]
  · next ht =>
    have hn : (s, t) ∉ pairs := fun hp => ht ((h.mem_dependents s t).2 hp)
    constructor
    · intro a b
      have := h.mem_dependents a b
      simp_all [dependents, Adjacency.mem_neighbours_link]
    · intro a b
      have := h.mem_dependees a b
      simp_all [dependees, Adjacency.mem_neighbours_link, and_comm]
    · exact h.tight_forward.link
    · exact h.tight_backward.link
    · rw [Finset.card_insert_of_notMem hn, h.size_eq]

theorem Represents.size_dependees (h : g.Represents pairs) (t : String) :
    (g.dependees t).size = (pairs.filter (·.2 = t)).card := by
  have hp : pairs.filter (·.2 = t) = (g.dependees t).toList.toFinset.image (·, t) := by
    ext ⟨a, b⟩
    have := h.mem_dependees a b
    simp only [Finset.mem_filter, Finset.mem_image, List.mem_toFinset, Std.ExtTreeSet.mem_toList,
      Prod.mk.injEq, ↓existsAndEq, true_and]
    grind
  rw [hp, Finset.card_image_of_injective _ (fun a b he => (Prod.mk.inj he).1),
    List.toFinset_card_of_nodup (nodup_toList _), Std.ExtTreeSet.length_toList]

theorem Represents.removeDependees (h : g.Represents pairs) (t : String) :
    (g.removeDependees t).Represents (pairs.filter (·.2 ≠ t)) where
  mem_dependents a b := by
    have := h.mem_dependents a b
    have := h.mem_dependees a t
    simp only [dependents, Graph.removeDependees, Adjacency.mem_neighbours_unlinkAll] at *
    simp only [Std.ExtTreeSet.mem_toList, ne_eq, Finset.mem_filter]
    grind
  mem_dependees a b := by
    have := h.mem_dependees a b
    simp_all [dependees, Graph.removeDependees, Adjacency.mem_neighbours_erase, and_comm]
  tight_forward := h.tight_forward.unlinkAll _
  tight_backward := h.tight_backward.erase
  size_eq := by
    have := Finset.card_filter_add_card_filter_not (s := pairs) (·.2 = t)
    simp only [Graph.removeDependees, h.size_dependees, h.size_eq, ne_eq]
    omega

/-- Adds the pair that belongs to each name. -/
theorem Represents.addAll (h : g.Represents pairs) (pair : String → String × String)
    (names : List String) :
    (names.foldl (fun g n => g.add (pair n).1 (pair n).2) g).Represents
      (pairs ∪ names.toFinset.image pair) := by
  induction names generalizing g pairs with
  | nil => simpa using h
  | cons n names ih =>
    have he : pairs ∪ (n :: names).toFinset.image pair =
        insert (pair n) pairs ∪ names.toFinset.image pair := by
      simp [Finset.insert_union]
    rw [he]
    exact ih (h.add _ _)

theorem mem_replaced_iff : (a, b) ∈ pairs.filter (·.2 ≠ t) ∪ ss.toFinset.image (·, t) ↔
    (b ≠ t ∧ (a, b) ∈ pairs) ∨ (b = t ∧ a ∈ ss) := by
  simp only [ne_eq, Finset.mem_union, Finset.mem_filter, Finset.mem_image, List.mem_toFinset,
    Prod.mk.injEq, ↓existsAndEq, true_and]
  tauto

theorem Represents.replaceDependees (h : g.Represents pairs) (t : String) (ss : List String) :
    (g.replaceDependees t ss).Represents
      (pairs.filter (·.2 ≠ t) ∪ ss.toFinset.image (·, t)) :=
  (h.removeDependees t).addAll (·, t) ss

/-- Replacing what a name depends on and putting the old names back restores the graph, however
the two lists overlap. -/
theorem Represents.replaceDependees_restore (h : g.Represents pairs) (t : String)
    (ss : List String) :
    (g.replaceDependees t ss).replaceDependees t (g.dependees t).toList = g := by
  apply ((h.replaceDependees t ss).replaceDependees t _).unique
  have he : (pairs.filter (·.2 ≠ t) ∪ ss.toFinset.image (·, t)).filter (·.2 ≠ t) ∪
      (g.dependees t).toList.toFinset.image (·, t) = pairs := by
    ext ⟨a, b⟩
    have ha := h.mem_dependees a t
    rw [mem_replaced_iff, mem_replaced_iff, Std.ExtTreeSet.mem_toList]
    by_cases hb : b = t
    · subst hb
      simp [ha]
    · simp [hb]
  rwa [he]

end Graph

end FormulaSheet
