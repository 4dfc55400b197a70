import Mathlib
import FormulaSheet.Proofs.Sheet.Reachable

namespace FormulaSheet

/-- What a formula reads from a name if all cells below it are evaluated anew: nothing but what was
entered counts, and no value that is stored. -/
inductive Contents.Reading (c : Contents) : String → Except EvalError Float → Prop
  | empty {n : String} : c n = none → Reading c n (.error (.empty n))
  | number {n : String} {x : Float} : c n = some (.number x) → Reading c n (.ok x)
  | text {n t : String} : c n = some (.text t) → Reading c n (.error (.notNumber n))
  | formula {n : String} {f : Formula} (read : String → Except EvalError Float) :
    c n = some (.formula f) → (∀ a ∈ f.names, Reading c a (read a)) →
    Reading c n ((f.evaluate read).mapError (.inCell n))

/-- Whether a formula has a value if all that it reads is evaluated anew. -/
def Contents.Recomputed (c : Contents) (f : Formula) (v : Except EvalError Float) : Prop :=
  ∃ read, (∀ a ∈ f.names, c.Reading a (read a)) ∧ f.evaluate read = v

theorem Contents.Reading.unique {c : Contents} {n : String} {v w : Except EvalError Float}
    (hv : c.Reading n v) (hw : c.Reading n w) : v = w := by
  induction hv generalizing w with
  | empty hc => cases hw <;> simp_all
  | number hc => cases hw <;> simp_all
  | text hc => cases hw <;> simp_all
  | @formula n f read hc _ ih =>
    cases hw with
    | @formula _ g read' hg hr =>
      obtain rfl : f = g := by simpa using hc.symm.trans hg
      rw [Formula.evaluate_congr fun a ha => ih a ha (hr a ha)]
    | _ => simp_all

namespace Sheet

variable {options : Options} {s s' : Sheet} {n : String}

theorem lookup_formula {f : Formula} {v : Except EvalError Float}
    (h : s.cells[n]? = some (.formula f v)) : s.lookup n = v.mapError (.inCell n) := by
  rw [lookup, h]
  cases v <;> rfl

/-- The values that are stored are those of evaluating everything anew: by induction along the
graph, since what a settled formula reads has been evaluated right. -/
theorem Coherent.reading (h : s.Coherent) (n : String) : s.content?.Reading n (s.lookup n) := by
  obtain ⟨pairs, hp⟩ := h.represents
  induction n using (hp.wellFounded h.acyclic).induction with
  | _ n ih =>
    cases hn : s.cells[n]? with
    | none =>
      rw [lookup, hn]
      exact .empty (by simp [content?, hn])
    | some cell =>
      cases cell with
      | number x =>
        rw [lookup, hn]
        exact .number (by simp [content?, hn, Cell.content])
      | text t =>
        rw [lookup, hn]
        exact .text (t := t) (by simp [content?, hn, Cell.content])
      | formula f v =>
        -- What the formula reads comes before it in the graph, so that the induction covers it.
        have hc : s.content? n = some (.formula f) := content?_eq_formula_iff.2 ⟨v, hn⟩
        rw [lookup_formula hn, h.settled n f v hn]
        exact .formula s.lookup hc fun a ha => ih a ((h.precedes_iff a n).2 ⟨f, hc, ha⟩)

theorem Coherent.reading_iff (h : s.Coherent) {v : Except EvalError Float} :
    s.content?.Reading n v ↔ v = s.lookup n :=
  ⟨fun hv => hv.unique (h.reading n), fun hv => hv ▸ h.reading n⟩

theorem Coherent.recomputed_iff (h : s.Coherent) {f : Formula} {v w : Except EvalError Float}
    (hn : s.cells[n]? = some (.formula f v)) : s.content?.Recomputed f w ↔ w = v := by
  rw [h.settled n f v hn]
  constructor
  · rintro ⟨read, hr, rfl⟩
    exact Formula.evaluate_congr fun a ha => h.reading_iff.1 (hr a ha)
  · rintro rfl
    exact ⟨s.lookup, fun a _ => h.reading a, rfl⟩

theorem Settled.refresh_eq (h : s.Settled n) : s.refresh n = s := by
  rcases s.refresh_cases n with ⟨-, he⟩ | ⟨f, v, hc, he⟩
  · exact he
  · have hcells : s.cells.insert n (.formula f v) = s.cells := by
      apply Std.ExtTreeMap.ext_getElem?
      intro t
      rw [Std.ExtTreeMap.getElem?_insert]
      split
      · next ht => rw [← hc, Std.LawfulEqCmp.compare_eq_iff_eq.1 ht]
      · rfl
    rw [he, ← h f v hc, Sheet.insert, hcells]

theorem Coherent.refreshAll_eq (h : s.Coherent) (names : List String) :
    names.foldl refresh s = s := by
  induction names with
  | nil => rfl
  | cons n names ih => rw [List.foldl_cons, (h.settled n).refresh_eq, ih]

def cellOver (lookup : String → Except EvalError Float) : Content → Cell
  | .number x => .number x
  | .text t => .text t
  | .formula f => .formula f (f.evaluate lookup)

theorem Coherent.getElem?_eq (h : s.Coherent) (n : String) :
    s.cells[n]? = (s.content? n).map (cellOver s.lookup) := by
  cases hn : s.cells[n]? with
  | none => simp [content?, hn]
  | some cell =>
    cases cell with
    | formula f v => simp [content?, hn, Cell.content, cellOver, ← h.settled n f v hn]
    | _ => simp [content?, hn, Cell.content, cellOver]

/-- Equal contents have equal values, however they came about. -/
theorem Coherent.cells_eq (h : s.Coherent) (h' : s'.Coherent) (hc : s'.content? = s.content?) :
    s'.cells = s.cells := by
  have hl : s'.lookup = s.lookup := by
    funext n
    exact (hc ▸ h'.reading n).unique (h.reading n)
  apply Std.ExtTreeMap.ext_getElem?
  intro n
  rw [h.getElem?_eq, h'.getElem?_eq, hc, hl]

/-- No value is stale: each formula has the value that evaluating everything anew gives, so that
computing any cells again in any order changes nothing, and the contents alone determine the
values. -/
theorem Reachable.values_recomputed (h : Reachable options s) :
    (∀ (n : String) (f : Formula) (v : Except EvalError Float),
      s.cells[n]? = some (.formula f v) → ∀ w, s.content?.Recomputed f w ↔ w = v) ∧
    (∀ names : List String, names.foldl refresh s = s) ∧
    ∀ options' s', Reachable options' s' → s'.content? = s.content? → s'.cells = s.cells :=
  ⟨fun _ _ _ hn _ => h.coherent.recomputed_iff hn, h.coherent.refreshAll_eq,
    fun _ _ h' hc => h.coherent.cells_eq h'.coherent hc⟩

/-- The cell was read before it was filled. -/
theorem values_recomputed_text :
    (setAll {} [("A1", "=B1"), ("B1", "x")]).cells["A1"]? =
        some (.formula ⟨[.name "B1"]⟩ (.error (.notNumber "B1"))) ∧
      ∀ w, (setAll {} [("A1", "=B1"), ("B1", "x")]).content?.Recomputed ⟨[.name "B1"]⟩ w ↔
        w = .error (.notNumber "B1") := by
  have hc : (setAll {} [("A1", "=B1"), ("B1", "x")]).cells["A1"]? =
      some (.formula ⟨[.name "B1"]⟩ (.error (.notNumber "B1"))) := by cbv
  have hr : Reachable {} (setAll {} [("A1", "=B1"), ("B1", "x")]) := Reachable.empty.setAll _
  exact ⟨hc, hr.values_recomputed.1 "A1" ⟨[.name "B1"]⟩ (.error (.notNumber "B1")) hc⟩

example : (EvalError.inCell "A1" (.notNumber "B1")).reason =
    "A1 has an error: B1 is not a number" := by decide

end Sheet

end FormulaSheet
