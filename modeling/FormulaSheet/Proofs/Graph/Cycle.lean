import FormulaSheet.Proofs.Graph.Pairs
import Mathlib.Data.List.Chain
import Mathlib.Order.WellFoundedSet

namespace FormulaSheet
open Relation

variable {r r' : String → String → Prop} {n : String} {names : List String}

/-- A way from a name back to itself that meets no other name twice. -/
structure Loop (r : String → String → Prop) (n : String) (names : List String) : Prop where
  head : names.head? = some n
  last : names.getLast? = some n
  two_le : 2 ≤ names.length
  nodup : names.tail.Nodup
  chain : names.IsChain r

theorem loop_iff : Loop r n names ↔
    ∃ between, names = n :: (between ++ [n]) ∧ (n :: between).Nodup ∧ names.IsChain r := by
  constructor
  · intro h
    obtain ⟨rest, rfl⟩ := List.head?_eq_some_iff.1 h.head
    have hr : rest ≠ [] := by
      rintro rfl
      simpa using h.two_le
    have hl := h.last
    rw [List.getLast?_cons_of_ne_nil hr, List.getLast?_eq_some_iff] at hl
    obtain ⟨between, rfl⟩ := hl
    exact ⟨between, rfl, (List.perm_append_singleton n between).nodup_iff.1 h.nodup, h.chain⟩
  · rintro ⟨between, rfl, hn, hc⟩
    refine ⟨rfl, ?_, by simp, ?_, hc⟩
    · rw [← List.cons_append, List.getLast?_append]
      rfl
    · exact (List.perm_append_singleton n between).nodup_iff.2 hn

theorem Loop.imp (h : Loop r n names) (hr : ∀ a ∈ names, ∀ b ∈ names, r a b → r' a b) :
    Loop r' n names where
  __ := h
  chain := h.chain.imp_of_mem_imp fun a b ha hb => hr a ha b hb

theorem Loop.transGen (h : Loop r n names) : TransGen r n n := by
  obtain ⟨between, rfl, -, hc⟩ := loop_iff.1 h
  obtain ⟨m, rest, hm⟩ := List.exists_cons_of_ne_nil (List.append_ne_nil_of_right_ne_nil between
    (List.cons_ne_nil n []))
  rw [hm, List.isChain_cons_cons] at hc
  refine TransGen.head' hc.1 (List.relationReflTransGen_of_exists_isChain_cons rest hc.2 ?_)
  simp [← hm]

theorem Loop.reach {m : String} (h : Loop r n names) (hm : m ∈ names) : ReflTransGen r n m := by
  obtain ⟨between, rfl, -, hc⟩ := loop_iff.1 h
  exact hc.induction (ReflTransGen r n ·) _ (fun _ _ hab ha => ha.tail hab)
    (fun _ => ReflTransGen.refl) m hm

/-- A way that is listed backwards, and a step from its end to a name on it, close a loop. -/
theorem loop_of_back {above below : List String} (hn : (above ++ n :: below).Nodup)
    (hp : (above ++ n :: below).IsChain fun t s => r s t)
    (hr : ∀ a ∈ (above ++ n :: below).head?, r a n) : Loop r n (n :: (above.reverse ++ [n])) := by
  refine loop_iff.2 ⟨above.reverse, rfl, ?_, ?_⟩
  · have := hn.sublist
      (List.Sublist.append_left (List.singleton_sublist.2 List.mem_cons_self) above)
    rw [← List.nodup_reverse, List.reverse_append] at this
    simpa using this
  · rw [← List.cons_append, List.isChain_append]
    refine ⟨?_, List.IsChain.singleton n, ?_⟩
    · have hc : (above ++ [n]).IsChain fun t s => r s t := (List.isChain_split.1 hp).1
      rw [← List.isChain_reverse] at hc
      simpa using hc
    · intro a ha b hb
      obtain rfl : n = b := by simpa using hb
      apply hr
      cases above with
      | nil => simpa using ha
      | cons x above => simpa [List.getLast?_cons] using ha

namespace Graph

variable {g : Graph} {pairs : Finset (String × String)} {s t a b : String}

def Precedes (g : Graph) (s t : String) : Prop := t ∈ g.dependents s

/-- No name depends on itself, directly or through others. -/
def Acyclic (g : Graph) : Prop := ∀ n, ¬TransGen g.Precedes n n

theorem Represents.precedes_iff (h : g.Represents pairs) : g.Precedes s t ↔ (s, t) ∈ pairs :=
  h.mem_dependents s t

/-- Going back from a name to what it depends on comes to an end. -/
theorem Represents.wellFounded (h : g.Represents pairs) (ha : g.Acyclic) :
    WellFounded g.Precedes := by
  -- Only finitely many names stand in a pair, and a strict order on finitely many is well-founded.
  have : IsStrictOrder String (TransGen g.Precedes) :=
    { irrefl := ha, trans := fun _ _ _ => TransGen.trans }
  have hwf := (pairs.image Prod.fst ∪ pairs.image Prod.snd).wellFoundedOn
    (r := TransGen g.Precedes)
  rw [Set.wellFoundedOn_iff] at hwf
  refine Subrelation.wf (fun {a b} hab => ?_) hwf
  have hp : (a, b) ∈ pairs := h.precedes_iff.1 hab
  refine ⟨.single hab, ?_, ?_⟩
  · exact Finset.mem_union_left _ (Finset.mem_image_of_mem Prod.fst hp)
  · exact Finset.mem_union_right _ (Finset.mem_image_of_mem Prod.snd hp)

theorem Represents.precedes_replaceDependees_iff (h : g.Represents pairs) (t : String)
    (ss : List String) : (g.replaceDependees t ss).Precedes a b ↔
      (b ≠ t ∧ g.Precedes a b) ∨ (b = t ∧ a ∈ ss) := by
  rw [(h.replaceDependees t ss).precedes_iff, h.precedes_iff]
  exact mem_replaced_iff

theorem Represents.precedes_replaceDependees_of_ne (h : g.Represents pairs) {ss : List String}
    (hb : b ≠ t) : (g.replaceDependees t ss).Precedes a b ↔ g.Precedes a b := by
  rw [h.precedes_replaceDependees_iff]
  simp [hb]

end Graph

end FormulaSheet
