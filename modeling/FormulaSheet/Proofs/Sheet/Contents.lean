import FormulaSheet.Sheet.Edit
import FormulaSheet.Proofs.Formula.Lookup
import Mathlib.Logic.Function.Basic

namespace FormulaSheet

abbrev Contents := String → Option Content

def Contents.Reads (c : Contents) (t s : String) : Prop :=
  ∃ f, c t = some (.formula f) ∧ s ∈ f.names

abbrev Contents.ReadBy (c : Contents) (s t : String) : Prop := c.Reads t s

/-- What a cell holds when a content was entered: empty text removes the cell. -/
def Content.stored (c : Content) : Option Content := if c.isEmpty then none else some c

theorem Content.mem_reads_iff {c : Content} {s : String} :
    s ∈ c.reads ↔ ∃ f, c.stored = some (.formula f) ∧ s ∈ f.names := by
  cases c with
  | number x => simp [reads, stored, isEmpty]
  | text t => simp [reads, stored, isEmpty]
  | formula f => simp [reads, stored, isEmpty, Std.ExtTreeSet.mem_toList]

theorem Contents.reads_update_iff {c : Contents} {n a b : String} {d : Content} :
    Reads (Function.update c n d.stored) b a ↔ (b ≠ n ∧ c.Reads b a) ∨ (b = n ∧ a ∈ d.reads) := by
  by_cases hb : b = n
  · subst hb
    simp [Reads, Content.mem_reads_iff]
  · simp [Reads, hb]

namespace Sheet

variable {s s' : Sheet} {n t : String} {c : Content}

def content? (s : Sheet) : Contents := fun n => s.cells[n]?.map Cell.content

theorem content?_eq_formula_iff {f : Formula} :
    s.content? n = some (.formula f) ↔ ∃ v, s.cells[n]? = some (.formula f v) := by
  simp only [content?, Option.map_eq_some_iff]
  constructor
  · rintro ⟨cell, hc, hf⟩
    cases cell with
    | formula g v =>
      obtain rfl : g = f := by simpa [Cell.content] using hf
      exact ⟨v, hc⟩
    | _ => simp [Cell.content] at hf
  · rintro ⟨v, hv⟩
    exact ⟨_, hv, rfl⟩

theorem getElem?_insert_of_ne {cell : Cell} (h : t ≠ n) :
    (s.insert n cell).cells[t]? = s.cells[t]? := by
  rw [insert, Std.ExtTreeMap.getElem?_insert, if_neg (by simpa using h.symm)]

theorem getElem?_insert_self {cell : Cell} : (s.insert n cell).cells[n]? = some cell := by
  rw [insert, Std.ExtTreeMap.getElem?_insert_self]

theorem content?_insert {cell : Cell} :
    (s.insert n cell).content? = Function.update s.content? n (some cell.content) := by
  funext t
  by_cases h : t = n
  · subst h
    simp [content?, getElem?_insert_self]
  · simp [content?, getElem?_insert_of_ne h, h]

theorem getElem?_store_of_ne (h : t ≠ n) : (s.store n c).cells[t]? = s.cells[t]? := by
  cases c with
  | text t' =>
    rw [store]
    split
    · rw [Std.ExtTreeMap.getElem?_erase, if_neg (by simpa using h.symm)]
    · exact getElem?_insert_of_ne h
  | _ => exact getElem?_insert_of_ne h

theorem content?_store : (s.store n c).content? = Function.update s.content? n c.stored := by
  cases c with
  | text t' =>
    rw [store]
    split
    · next he =>
      funext t
      rw [Content.stored, if_pos (by simpa [Content.isEmpty] using he)]
      by_cases h : t = n
      · subst h
        simp [content?]
      · simp [content?, h, Std.ExtTreeMap.getElem?_erase, Ne.symm h]
    · next he =>
      rw [Content.stored, if_neg (by simpa [Content.isEmpty] using he)]
      exact content?_insert
  | _ => exact content?_insert

/-- Storing a content touches nothing but the cells. -/
theorem frame_store (s : Sheet) (n : String) (c : Content) :
    { s.store n c with cells := s.cells } = s := by
  unfold store
  split
  · rfl
  · split <;> rfl
  · rfl

/-- Computing a value again changes nothing but the value of a formula. -/
theorem refresh_cases (s : Sheet) (n : String) :
    ((∀ f v, s.cells[n]? ≠ some (.formula f v)) ∧ s.refresh n = s) ∨
    ∃ f v, s.cells[n]? = some (.formula f v) ∧
      s.refresh n = s.insert n (.formula f (f.evaluate s.lookup)) := by
  unfold refresh
  split
  · next f v h => exact .inr ⟨f, v, h, rfl⟩
  · next h => exact .inl ⟨h, rfl⟩

theorem getElem?_refresh_of_ne (h : t ≠ n) : (s.refresh n).cells[t]? = s.cells[t]? := by
  rcases s.refresh_cases n with ⟨-, he⟩ | ⟨f, v, -, he⟩
  · rw [he]
  · rw [he, getElem?_insert_of_ne h]

theorem content?_refresh : (s.refresh n).content? = s.content? := by
  rcases s.refresh_cases n with ⟨-, he⟩ | ⟨f, v, hc, he⟩
  · rw [he]
  · rw [he, content?_insert]
    exact Function.update_eq_self_iff.2 (content?_eq_formula_iff.2 ⟨v, hc⟩).symm

theorem frame_refresh (s : Sheet) (n : String) :
    { s.refresh n with cells := s.cells } = s := by
  rcases s.refresh_cases n with ⟨-, he⟩ | ⟨f, v, -, he⟩
  · rw [he]
  · rw [he]
    rfl

theorem content?_refreshAll (names : List String) :
    (names.foldl refresh s).content? = s.content? := by
  induction names generalizing s with
  | nil => rfl
  | cons n names ih => rw [List.foldl_cons, ih, content?_refresh]

theorem frame_refreshAll (s : Sheet) (names : List String) :
    { names.foldl refresh s with cells := s.cells } = s := by
  induction names generalizing s with
  | nil => rfl
  | cons n names ih =>
    calc
      { names.foldl refresh (s.refresh n) with cells := s.cells }
        = { s.refresh n with cells := s.cells } := congrArg (fun x => { x with cells := s.cells })
          (ih (s.refresh n))
      _ = s := s.frame_refresh n

theorem lookup_congr (h : s.cells[n]? = s'.cells[n]?) : s.lookup n = s'.lookup n := by
  rw [lookup, lookup, h]

end Sheet

end FormulaSheet
