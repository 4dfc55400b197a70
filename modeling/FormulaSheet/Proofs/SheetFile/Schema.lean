import FormulaSheet.Proofs.Json.Text
import FormulaSheet.Proofs.SheetFile.Merged
import FormulaSheet.SheetFile.Read

namespace FormulaSheet.SheetFile

open Json

section Schema

inductive IsText : Tree → String → Prop
  | string {ps : List Piece} {s : String} (h : Denotes ps s) : IsText (.string ps) s

/-- Whether every key of an object is a text, and the members are the object's own. -/
def Named (ms : List (List Piece × Tree)) (members : List (String × Tree)) : Prop :=
  List.Forall₂ (fun m member => Denotes m.1 member.1 ∧ m.2 = member.2) ms members

/-- Whether exactly one member has a name, and what it holds. -/
def Sole (members : List (String × Tree)) (name : String) (v : Tree) : Prop :=
  (name, v) ∈ members ∧ (members.map Prod.fst).count name = 1

inductive IsRecord : Tree → String → Prop
  | object {ms : List (List Piece × Tree)} {members : List (String × Tree)} {v : Tree}
      {form : String} (hn : Named ms members) (hf : Sole members "stringForm" v)
      (h : IsText v form) : IsRecord (.object ms) form
  | array {v : Tree} {form : String} (h : IsText v form) : IsRecord (.array [v]) form

/-- Whether a value is an object of records. Cells are listed as they stand, repeated names too. -/
inductive IsCells : Tree → List (String × String) → Prop
  | object {ms : List (List Piece × Tree)} {cells : List (String × String)}
      (h : List.Forall₂ (fun m cell => Denotes m.1 cell.1 ∧ IsRecord m.2 cell.2) ms cells) :
      IsCells (.object ms) cells

inductive IsSheet : Tree → List (String × String) → String → Prop
  | object {ms : List (List Piece × Tree)} {members : List (String × Tree)} {c v : Tree}
      {cells : List (String × String)} {version : String} (hn : Named ms members)
      (hc : Sole members "cells" c) (hv : Sole members "Version" v) (h : IsCells c cells)
      (h' : IsText v version) : IsSheet (.object ms) cells version
  | array {c v : Tree} {cells : List (String × String)} {version : String} (h : IsCells c cells)
      (h' : IsText v version) : IsSheet (.array [c, v]) cells version

def Describes (text : String) (cells : List (String × String)) (version : String) : Prop :=
  ∃ t, Written (.element t) text.toList ∧ IsSheet t cells version

end Schema

variable {t v : Tree} {name form version s text : String} {ms : List (List Piece × Tree)}
  {members : List (String × Tree)} {cells : List (String × String)} {file : SheetFile}

theorem mapM_eq_some_iff {α β : Type} {f : α → Option β} {r : α → β → Prop} {xs : List α}
    {ys : List β} (h : ∀ x ∈ xs, ∀ y, f x = some y ↔ r x y) :
    xs.mapM f = some ys ↔ List.Forall₂ r xs ys := by
  induction xs generalizing ys with
  | nil => simp [eq_comm]
  | cons x xs ih =>
    obtain ⟨hx, hxs⟩ := List.forall_mem_cons.1 h
    simp only [List.mapM_cons, Option.bind_eq_bind, Option.bind_eq_some_iff, Option.pure_def,
      Option.some.injEq, hx, ih hxs, List.forall₂_cons_left_iff]
    grind

theorem members?_eq_some_iff (hf : (Tree.object ms).Fits) :
    members? ms = some members ↔ Named ms members := by
  refine mapM_eq_some_iff fun m hm member => ?_
  simp only [Option.map_eq_some_iff, text?_eq_some_iff (hf.member hm).1]
  grind

theorem field?_eq_some_iff : field? members name = some v ↔ Sole members name v := by
  have hcount : (members.map Prod.fst).count name = (members.filter (·.1 == name)).length := by
    rw [List.count, List.countP_map, List.countP_eq_length_filter]
    rfl
  have hmem : (name, v) ∈ members ↔ (name, v) ∈ members.filter (·.1 == name) := by simp
  rw [Sole, hcount, hmem, field?]
  constructor
  · intro h
    split at h
    · next n w hl =>
      cases h
      have hn : (n, v) ∈ members.filter (·.1 == name) := hl ▸ List.mem_singleton_self _
      obtain rfl : n = name := by simpa using (List.mem_filter.1 hn).2
      exact ⟨hn, congrArg List.length hl⟩
    · cases h
  · rintro ⟨hm, hl⟩
    obtain ⟨member, hl⟩ := List.length_eq_one_iff.1 hl
    rw [hl, List.mem_singleton] at hm
    rw [hl, ← hm]

theorem stringOf?_eq_some_iff (hf : t.Fits) : stringOf? t = some s ↔ IsText t s := by
  cases t with
  | string ps =>
    rw [stringOf?, text?_eq_some_iff hf.string]
    exact ⟨.string, fun ⟨h⟩ => h⟩
  | word | number | array | object => exact ⟨nofun, nofun⟩

theorem Named.exists_of_mem (hn : Named ms members) (hv : (name, v) ∈ members) :
    ∃ m ∈ ms, m.2 = v := by
  induction hn with
  | nil => cases hv
  | cons h _ ih =>
    rcases List.mem_cons.1 hv with rfl | hv
    · exact ⟨_, List.mem_cons_self, h.2⟩
    · obtain ⟨m, hm, he⟩ := ih hv
      exact ⟨m, List.mem_cons_of_mem _ hm, he⟩

theorem Named.fits (hn : Named ms members) (hv : Sole members name v)
    (hf : (Tree.object ms).Fits) : v.Fits := by
  obtain ⟨m, hm, rfl⟩ := hn.exists_of_mem hv.1
  exact (hf.member hm).2

theorem recordOf?_eq_some_iff (hf : t.Fits) : recordOf? t = some form ↔ IsRecord t form := by
  unfold recordOf?
  split
  · next ms =>
    simp only [Option.bind_eq_bind, Option.bind_eq_some_iff, members?_eq_some_iff hf,
      field?_eq_some_iff]
    constructor
    · rintro ⟨members, hn, v, hv, h⟩
      exact .object hn hv ((stringOf?_eq_some_iff (hn.fits hv hf)).1 h)
    · intro h
      cases h with
      | object hn hv h => exact ⟨_, hn, _, hv, (stringOf?_eq_some_iff (hn.fits hv hf)).2 h⟩
  · next v =>
    rw [stringOf?_eq_some_iff (hf.item (List.mem_singleton_self v))]
    constructor
    · exact .array
    · intro h
      cases h with
      | array h => exact h
  · next ho ha =>
    refine iff_of_false nofun fun h => ?_
    cases h with
    | object => exact ho _ rfl
    | array => exact ha _ rfl

theorem cellsOf?_eq_some_iff (hf : t.Fits) : cellsOf? t = some cells ↔ IsCells t cells := by
  cases t with
  | object ms =>
    have hcell : ∀ m ∈ ms, ∀ cell : String × String,
        (do return (← text? m.1, ← recordOf? m.2)) = some cell ↔
          Denotes m.1 cell.1 ∧ IsRecord m.2 cell.2 := by
      intro m hm cell
      obtain ⟨hkey, hrecord⟩ := hf.member hm
      simp only [Option.bind_eq_bind, Option.bind_eq_some_iff, Option.pure_def, Option.some.injEq,
        text?_eq_some_iff hkey, recordOf?_eq_some_iff hrecord]
      grind
    rw [cellsOf?, mapM_eq_some_iff hcell]
    exact ⟨.object, fun ⟨h⟩ => h⟩
  | word | number | string | array => exact ⟨nofun, nofun⟩

theorem ofTree?_eq_some_iff (hf : t.Fits) :
    ofTree? t = some file ↔ ∃ cells, IsSheet t cells file.version ∧ Merges cells file.cells := by
  unfold ofTree?
  split
  · next ms =>
    simp only [Option.bind_eq_bind, Option.bind_eq_some_iff, members?_eq_some_iff hf,
      field?_eq_some_iff, Option.pure_def, Option.some.injEq, ofPairs_eq_iff]
    constructor
    · rintro ⟨members, hn, c, hc, v, hv, cells, h, _, h', hm, rfl⟩
      rw [cellsOf?_eq_some_iff (hn.fits hc hf)] at h
      rw [stringOf?_eq_some_iff (hn.fits hv hf)] at h'
      exact ⟨cells, .object hn hc hv h h', hm⟩
    · rintro ⟨cells, h, hm⟩
      cases h with
      | object hn hc hv h h' =>
        exact ⟨_, hn, _, hc, _, hv, cells, (cellsOf?_eq_some_iff (hn.fits hc hf)).2 h, _,
          (stringOf?_eq_some_iff (hn.fits hv hf)).2 h', hm, rfl⟩
  · next c v =>
    have hc : c.Fits := hf.item List.mem_cons_self
    have hv : v.Fits := hf.item (List.mem_cons_of_mem _ (List.mem_singleton_self v))
    simp only [Option.bind_eq_bind, Option.bind_eq_some_iff, Option.pure_def, Option.some.injEq,
      ofPairs_eq_iff, cellsOf?_eq_some_iff hc, stringOf?_eq_some_iff hv]
    constructor
    · rintro ⟨cells, h, _, h', hm, rfl⟩
      exact ⟨cells, .array h h', hm⟩
    · rintro ⟨cells, h, hm⟩
      cases h with
      | array h h' => exact ⟨cells, h, _, h', hm, rfl⟩
  · next ho ha =>
    refine iff_of_false nofun ?_
    rintro ⟨cells, h, -⟩
    cases h with
    | object => exact ho _ rfl
    | array => exact ha _ _ rfl

theorem read?_eq_some_iff : read? text = some file ↔
    ∃ cells, Describes text cells file.version ∧ Merges cells file.cells := by
  rw [read?, Option.bind_eq_bind, Option.bind_eq_some_iff]
  constructor
  · rintro ⟨t, ht, h⟩
    obtain ⟨cells, hs, hm⟩ := (ofTree?_eq_some_iff (fits_of_parse ht)).1 h
    exact ⟨cells, ⟨t, parse_eq_some_iff.1 ht, hs⟩, hm⟩
  · rintro ⟨cells, ⟨t, hw, hs⟩, hm⟩
    have ht := parse_eq_some_iff.2 hw
    exact ⟨t, ht, (ofTree?_eq_some_iff (fits_of_parse ht)).2 ⟨cells, hs, hm⟩⟩

/-- A text is read as a sheet just when it is one JSON value of the schema, and then as that
sheet. -/
theorem read?_schema (text : String) :
    (∀ file, read? text = some file ↔
      ∃ cells, Describes text cells file.version ∧ Merges cells file.cells) ∧
    ((∃ file, read? text = some file) ↔ ∃ cells version, Describes text cells version) := by
  refine ⟨fun file => read?_eq_some_iff, ?_⟩
  constructor
  · rintro ⟨file, h⟩
    obtain ⟨cells, hd, -⟩ := read?_eq_some_iff.1 h
    exact ⟨cells, file.version, hd⟩
  · rintro ⟨cells, version, hd⟩
    exact ⟨ofPairs cells version, read?_eq_some_iff.2 ⟨cells, hd, merges_ofPairs cells _⟩⟩

-- A name that is spelled with an escape is the same name again.
example : (read? "[\x7b\"a\": [\"1\"], \"b\": [\"2\"], \"\\u0061\": [\"3\"]\x7d, \"v\"]").map
    (fun file => file.cells) = some [("a", "3"), ("b", "2")] := by
  cbv

theorem start_of_read? (h : read? text = some file) :
    ∃ c rest, text.toList.dropWhile Json.isSpace = c :: rest ∧ (c = '[' ∨ c = '\x7b') := by
  obtain ⟨cells, ⟨t, hw, hs⟩, -⟩ := read?_eq_some_iff.1 h
  have hstart : ∀ cs, Written (.value t) cs →
      ∃ c rest, cs = c :: rest ∧ (c = '[' ∨ c = '\x7b') := by
    intro cs hv
    cases hs with
    | object =>
      cases hv with
      | emptyObject | object => exact ⟨_, _, rfl, .inr rfl⟩
    | array =>
      cases hv with
      | array => exact ⟨_, _, rfl, .inl rfl⟩
  generalize text.toList = cs at hw ⊢
  cases hw with
  | element hb hv ha =>
    obtain ⟨c, rest, rfl, hc⟩ := hstart _ hv
    refine ⟨c, _, dropWhile_run (spaces_iff.1 hb) ?_, hc⟩
    rintro _ ⟨⟩
    rcases hc with rfl | rfl <;> rfl

end FormulaSheet.SheetFile
