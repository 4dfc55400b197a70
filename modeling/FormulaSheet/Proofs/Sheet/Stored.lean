import Mathlib
import FormulaSheet.Proofs.Content
import FormulaSheet.Proofs.Sheet.Reachable

namespace FormulaSheet

theorem Content.stored_eq_some_iff {c d : Content} :
    c.stored = some d ↔ c = d ∧ c.isEmpty = false := by
  unfold stored
  split <;> simp_all

/-- Whether an edit is to give a cell a content: it names the cell and spells the content. -/
structure Naming.Enters (rules : Naming) (edit : String × String) (n : String) (c : Content) :
    Prop where
  normalize : rules.normalize edit.1 = n
  isCellName : isCellName n
  accepts : rules.accepts n
  spells : c.Spells rules edit.2

def Cell.arity : Cell → ℕ
  | formula f _ => f.names.size
  | number _ | text _ => 0

namespace Sheet

variable {options : Options} {s : Sheet} {name input n a b : String} {c : Content}

theorem cellName_eq_ok_iff : s.cellName name = .ok n ↔
    s.options.naming.normalize name = n ∧ isCellName n ∧ s.options.naming.accepts n := by
  unfold cellName
  grind

theorem enters_iff : s.options.naming.Enters (name, input) n c ↔
    s.cellName name = .ok n ∧ Content.parse s.options.naming input = .ok c := by
  rw [cellName_eq_ok_iff, Content.parse_eq_ok_iff]
  exact ⟨fun h => ⟨⟨h.normalize, h.isCellName, h.accepts⟩, h.spells⟩,
    fun h => ⟨h.1.1, h.1.2.1, h.1.2.2, h.2⟩⟩

/-- An edit is refused and changes nothing, or it enters a content. -/
theorem Coherent.set_cases (h : s.Coherent) (name input : String) :
    (∃ e, s.set name input = (.error e, s)) ∨
    ∃ n c order, s.options.naming.Enters (name, input) n c ∧ (s.edited n c order).Coherent ∧
      s.set name input = (.ok ⟨order, true⟩, s.edited n c order) := by
  obtain ⟨pairs, hp⟩ := h.represents
  rcases s.set_cases name input with he | ⟨n, c, hn, hc, hs⟩
  · exact .inl he
  · rw [hs]
    cases ho : (s.graph.replaceDependees n c.reads).recalculationOrder n with
    | ok order =>
      exact .inr ⟨n, c, order, enters_iff.2 ⟨hn, hc⟩, h.edited ho, put_of_ok ho⟩
    | error e => exact .inl ⟨_, put_of_error hp ho⟩

/-- Whether every content was entered by an edit of its cell. -/
def Entered (s : Sheet) : Prop :=
  ∀ n c, s.content? n = some c → c.isEmpty = false ∧ ∃ edit, s.options.naming.Enters edit n c

theorem Entered.set (he : s.Entered) (h : s.Coherent) (name input : String) :
    (s.set name input).2.Entered := by
  rcases h.set_cases name input with ⟨e, hs⟩ | ⟨n, c, order, hc, -, hs⟩
  · rw [hs]
    exact he
  rw [hs]
  intro m d hm
  rw [options_edited]
  rw [content?_edited] at hm
  by_cases hmn : m = n
  · subst hmn
    rw [Function.update_self, Content.stored_eq_some_iff] at hm
    obtain ⟨rfl, hd⟩ := hm
    exact ⟨hd, (name, input), hc⟩
  · rw [Function.update_of_ne hmn] at hm
    exact he m d hm

theorem Reachable.entered (h : Reachable options s) : s.Entered := by
  have hp : s.Coherent ∧ s.Entered :=
    h.invariant (P := fun s => s.Coherent ∧ s.Entered)
      ⟨coherent_empty options, fun n c hn => by simp [content?] at hn⟩
      (fun s name input hs => ⟨hs.1.set name input, hs.2.set hs.1 name input⟩)
      fun s b hs => ⟨hs.1.changed b, hs.2⟩
  exact hp.2

def readPairs (s : Sheet) : List (String × String) :=
  s.cells.toList.flatMap fun cell => cell.2.content.reads.map fun a => (a, cell.1)

theorem mem_readPairs_iff :
    (a, b) ∈ s.readPairs ↔ ∃ f v, s.cells[b]? = some (.formula f v) ∧ a ∈ f.names := by
  simp only [readPairs, List.mem_flatMap, List.mem_map, Prod.mk.injEq]
  constructor
  · rintro ⟨⟨t, cell⟩, hc, x, hx, rfl, rfl⟩
    have hc := Std.ExtTreeMap.mem_toList_iff_getElem?_eq_some.1 hc
    cases cell with
    | formula f v => exact ⟨f, v, hc, Std.ExtTreeSet.mem_toList.1 hx⟩
    | _ => simp [Cell.content, Content.reads] at hx
  · rintro ⟨f, v, hc, ha⟩
    exact ⟨(b, .formula f v), Std.ExtTreeMap.mem_toList_iff_getElem?_eq_some.2 hc, a,
      Std.ExtTreeSet.mem_toList.2 ha, rfl, rfl⟩

theorem nodup_reads (c : Content) : c.reads.Nodup := by
  cases c with
  | formula f => exact nodup_toList f.names
  | _ => exact List.nodup_nil

theorem nodup_readPairs (s : Sheet) : s.readPairs.Nodup := by
  rw [readPairs, List.nodup_flatMap]
  constructor
  · intro cell _
    exact (nodup_reads cell.2.content).map fun a b h => (Prod.mk.inj h).1
  -- The cells have different names, so no pair comes from two of them.
  · refine Std.ExtTreeMap.distinct_keys_toList.imp fun {x y} h => ?_
    intro p hx hy
    simp only [List.mem_map] at hx hy
    obtain ⟨a, -, rfl⟩ := hx
    obtain ⟨b, -, hb⟩ := hy
    exact h (by simp [(Prod.mk.inj hb).2])

theorem Coherent.represents_readPairs (h : s.Coherent) :
    s.graph.Represents s.readPairs.toFinset := by
  obtain ⟨pairs, hp⟩ := h.represents
  have he : pairs = s.readPairs.toFinset := by
    ext ⟨a, b⟩
    rw [← hp.precedes_iff, h.precedes_iff, List.mem_toFinset, mem_readPairs_iff]
    simp only [Contents.Reads, content?_eq_formula_iff]
    grind
  rwa [← he]

theorem length_readPairs (s : Sheet) :
    s.readPairs.length = (s.cells.toList.map fun cell => cell.2.arity).sum := by
  rw [readPairs, List.length_flatMap]
  congr 2
  funext ⟨n, cell⟩
  cases cell with
  | formula f v => simp [Cell.content, Content.reads, Cell.arity]
  | _ => rfl

/-- What is stored fits together: the graph holds what the formulas read and nothing else, names
are normal and accepted, and a content is what its input stands for. -/
structure WellFormed (rules : Naming) (s : Sheet) : Prop where
  dependents_iff : ∀ a b : String, b ∈ s.graph.dependents a ↔
    ∃ f v, s.cells[b]? = some (.formula f v) ∧ a ∈ f.names
  dependees_iff : ∀ a b : String, a ∈ s.graph.dependees b ↔
    ∃ f v, s.cells[b]? = some (.formula f v) ∧ a ∈ f.names
  size_eq : s.graph.size = (s.cells.toList.map fun cell => cell.2.arity).sum
  name : ∀ n ∈ s.cells, isCellName n ∧ rules.accepts n
  variable_name : ∀ (n : String) (f : Formula) (v : Except EvalError Float),
    s.cells[n]? = some (.formula f v) → ∀ a ∈ f.names, isVariable a ∧ rules.accepts a
  number : ∀ (n : String) (x : Float), s.cells[n]? = some (.number x) → x.isFinite
  text : ∀ n t : String, s.cells[n]? = some (.text t) →
    t ≠ "" ∧ t.toList.head? ≠ some '=' ∧ ∀ x, readNumber (trim t.toList) = some x → ¬x.isFinite

theorem Reachable.wellFormed (h : Reachable options s) : s.WellFormed options.naming := by
  have hp := h.coherent.represents_readPairs
  have hentered : ∀ n cell, s.cells[n]? = some cell → cell.content.isEmpty = false ∧
      ∃ edit, options.naming.Enters edit n cell.content := by
    intro n cell hn
    rw [← h.options_eq]
    exact h.entered n cell.content (by rw [content?, hn]; rfl)
  constructor
  · intro a b
    rw [hp.mem_dependents, List.mem_toFinset, mem_readPairs_iff]
  · intro a b
    rw [hp.mem_dependees, List.mem_toFinset, mem_readPairs_iff]
  · rw [hp.size_eq, List.toFinset_card_of_nodup s.nodup_readPairs, length_readPairs]
  · intro n hn
    obtain ⟨cell, hc⟩ := Option.isSome_iff_exists.1 (Std.ExtTreeMap.isSome_getElem?_iff_mem.2 hn)
    obtain ⟨-, edit, he⟩ := hentered n cell hc
    exact ⟨he.isCellName, he.accepts⟩
  · intro n f v hn a ha
    obtain ⟨-, edit, he⟩ := hentered n _ hn
    obtain ⟨⟨source, -, hf⟩, -⟩ := he.spells
    obtain ⟨w, hw⟩ := Formula.exists_resolve hf ha
    exact (Naming.resolve_eq_ok_iff.1 hw).2
  · intro n x hn
    obtain ⟨-, edit, he⟩ := hentered n _ hn
    exact he.spells.2
  · intro n t hn
    obtain ⟨ht, edit, he⟩ := hentered n _ hn
    obtain ⟨rfl, hh, hx⟩ := he.spells
    exact ⟨by simpa [Cell.content, Content.isEmpty] using ht, hh, fun x hr hf => hx x ⟨hr, hf⟩⟩

/-- The pair of the first formula is gone. -/
theorem wellFormed_two :
    "A1" ∈ (setAll {} [("A1", "=B1"), ("A1", "=C1*C1")]).graph.dependents "C1" ∧
      "A1" ∉ (setAll {} [("A1", "=B1"), ("A1", "=C1*C1")]).graph.dependents "B1" := by
  have h : Reachable {} (setAll {} [("A1", "=B1"), ("A1", "=C1*C1")]) :=
    Reachable.empty.setAll _
  have hc : (setAll {} [("A1", "=B1"), ("A1", "=C1*C1")]).cells["A1"]? =
      some (.formula ⟨[.name "C1", .op .mul, .name "C1"]⟩ (.error (.empty "C1"))) := by cbv
  rw [h.wellFormed.dependents_iff, h.wellFormed.dependents_iff]
  simp [hc, Formula.mem_names_iff]

end Sheet

end FormulaSheet
