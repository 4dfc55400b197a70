import FormulaSheet.Proofs.Graph.Order

namespace FormulaSheet
open Relation

section Steps

variable {r r' : String → String → Prop} {n m a b : String}

/-- What can be reached from a name depends only on the steps that do not lead back to it. -/
theorem reach_of_steps (h : ∀ a b, b ≠ n → r a b → r' a b) (hr : ReflTransGen r n m) :
    ReflTransGen r' n m := by
  induction hr with
  | refl => exact ReflTransGen.refl
  | @tail b c _ hbc ih =>
    by_cases hc : c = n
    · rw [hc]
    · exact ih.tail (h b c hc hbc)

/-- A way either has no step to a given name or comes through that name. -/
theorem transGen_or_through (h : ∀ a b, b ≠ n → r a b → r' a b) (hr : TransGen r a b) :
    TransGen r' a b ∨ (TransGen r a n ∧ ReflTransGen r n b) := by
  induction hr with
  | @single b hab =>
    by_cases hb : b = n
    · exact .inr ⟨hb ▸ .single hab, by rw [hb]⟩
    · exact .inl (.single (h a b hb hab))
  | @tail b c hab hbc ih =>
    by_cases hc : c = n
    · exact .inr ⟨hc ▸ hab.tail hbc, by rw [hc]⟩
    · rcases ih with ih | ⟨hn, hb⟩
      · exact .inl (ih.tail (h b c hc hbc))
      · exact .inr ⟨hn, hb.tail hbc⟩

end Steps

namespace Graph

variable {g : Graph} {pairs : Finset (String × String)} {t n : String} {ss : List String}

/-- Replacing what a name depends on does not change what depends on it. -/
theorem Represents.reach_replaceDependees_iff (h : g.Represents pairs) :
    ReflTransGen (g.replaceDependees t ss).Precedes t n ↔ ReflTransGen g.Precedes t n := by
  constructor
  · exact reach_of_steps fun a b hb => (h.precedes_replaceDependees_of_ne hb).1
  · exact reach_of_steps fun a b hb => (h.precedes_replaceDependees_of_ne hb).2

theorem Represents.transGen_replaceDependees_iff (h : g.Represents pairs) :
    TransGen (g.replaceDependees t ss).Precedes t t ↔ ∃ s ∈ ss, ReflTransGen g.Precedes t s := by
  rw [TransGen.tail'_iff]
  constructor
  · rintro ⟨s, hs, hst⟩
    rcases (h.precedes_replaceDependees_iff t ss).1 hst with hne | hm
    · exact absurd rfl hne.1
    · exact ⟨s, hm.2, h.reach_replaceDependees_iff.1 hs⟩
  · rintro ⟨s, hs, hr⟩
    refine ⟨s, h.reach_replaceDependees_iff.2 hr, ?_⟩
    exact (h.precedes_replaceDependees_iff t ss).2 (.inr ⟨rfl, hs⟩)

/-- The pairs that are put in all end at one name, so a cycle among them has to come through it. -/
theorem Represents.acyclic_replaceDependees_iff (h : g.Represents pairs) (ha : g.Acyclic) :
    (g.replaceDependees t ss).Acyclic ↔ ∀ s ∈ ss, ¬ReflTransGen g.Precedes t s := by
  constructor
  · intro hc s hs hr
    exact hc t (h.transGen_replaceDependees_iff.2 ⟨s, hs, hr⟩)
  · intro hn a hc
    rcases transGen_or_through (fun a b hb => (h.precedes_replaceDependees_of_ne hb).1) hc with
      hc | ⟨hat, hta⟩
    · exact ha a hc
    · obtain ⟨s, hs, hr⟩ := h.transGen_replaceDependees_iff.1 (hat.trans_right hta)
      exact hn s hs hr

/-- Looking only at what depends on the name is enough to find out about cycles anywhere. -/
theorem Represents.exists_order_replaceDependees_iff (h : g.Represents pairs) (ha : g.Acyclic) :
    (∃ order, (g.replaceDependees t ss).recalculationOrder t = .ok order) ↔
      ∀ s ∈ ss, ¬ReflTransGen g.Precedes t s := by
  rw [exists_recalculationOrder_iff]
  constructor
  · intro hn s hs hr
    exact hn t ReflTransGen.refl (h.transGen_replaceDependees_iff.2 ⟨s, hs, hr⟩)
  · intro hn a _
    exact (h.acyclic_replaceDependees_iff ha).2 hn a

theorem Represents.acyclic_of_recalculationOrder (h : g.Represents pairs) (ha : g.Acyclic)
    {order : List String} (ho : (g.replaceDependees t ss).recalculationOrder t = .ok order) :
    (g.replaceDependees t ss).Acyclic :=
  (h.acyclic_replaceDependees_iff ha).2 ((h.exists_order_replaceDependees_iff ha).1 ⟨order, ho⟩)

/-- An accepted replacement does not change the walk from the name: on the way there is no name that
comes back to it, before or after, and only pairs to the name itself are replaced. -/
theorem Represents.recalculationOrder_eq (h : g.Represents pairs) (ha : g.Acyclic)
    (hr : (g.replaceDependees t ss).Acyclic) :
    (g.replaceDependees t ss).recalculationOrder t = g.recalculationOrder t := by
  refine recalculationOrder_congr fun n hn => Std.ExtTreeSet.ext_mem fun b => ?_
  by_cases hb : b = t
  · subst hb
    have hn' : ReflTransGen (g.replaceDependees b ss).Precedes b n :=
      h.reach_replaceDependees_iff.2 hn
    constructor
    · intro hnb
      exact absurd (TransGen.tail' hn' hnb) (hr b)
    · intro hnb
      exact absurd (TransGen.tail' hn hnb) (ha b)
  · exact h.precedes_replaceDependees_of_ne hb

/-- A refused replacement is answered by a loop through the name itself. -/
theorem Represents.loop_replaceDependees (h : g.Represents pairs) (ha : g.Acyclic)
    {e : CircularDependency} (he : (g.replaceDependees t ss).recalculationOrder t = .error e) :
    Loop (g.replaceDependees t ss).Precedes t e.cycle := by
  obtain ⟨n, hl, -, hn⟩ := recalculationOrder_loop he
  by_cases ht : t ∈ e.cycle
  · exact hn ht ▸ hl
  -- A loop elsewhere has none of the new pairs, so it was there before.
  · have hold : Loop g.Precedes n e.cycle := by
      refine hl.imp fun a _ b hb => ?_
      exact (h.precedes_replaceDependees_of_ne (ne_of_mem_of_not_mem hb ht)).1
    exact absurd hold.transGen (ha n)

end Graph

end FormulaSheet
