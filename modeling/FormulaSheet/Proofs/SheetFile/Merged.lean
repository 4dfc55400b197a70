import Mathlib
import FormulaSheet.SheetFile.Basic

namespace FormulaSheet.SheetFile

variable {seen : Std.ExtTreeSet String} {names : List String} {name form version : String}
  {all cells cells' : List (String × String)} {file : SheetFile}

/-- Whether `cells` has each name of `all` once, in the order in which the names stand there first
and with the text that stands there last. -/
structure Merges (all cells : List (String × String)) : Prop where
  ordered : cells.Pairwise fun a b =>
    (all.map Prod.fst).idxOf a.1 < (all.map Prod.fst).idxOf b.1
  mem_iff : ∀ name form, (name, form) ∈ cells ↔
    ∃ before after, all = before ++ (name, form) :: after ∧ name ∉ after.map Prod.fst

theorem mem_firstNames : name ∈ firstNames seen names ↔ name ∈ names ∧ name ∉ seen := by
  induction names generalizing seen with
  | nil => simp [firstNames]
  | cons n names ih =>
    rw [firstNames]
    split
    · next hn =>
      rw [ih, List.mem_cons]
      grind
    · next hn =>
      rw [List.mem_cons, ih, List.mem_cons]
      by_cases h : name = n
      · simp [h, hn]
      · simp [h, Ne.symm h]

theorem pairwise_firstNames :
    (firstNames seen names).Pairwise fun a b => names.idxOf a < names.idxOf b := by
  have step : ∀ {n : String} {names rest : List String}, n ∉ rest →
      (rest.Pairwise fun a b => names.idxOf a < names.idxOf b) →
      rest.Pairwise fun a b => (n :: names).idxOf a < (n :: names).idxOf b := by
    intro n names rest hn h
    refine h.imp_of_mem fun ha hb hlt => ?_
    rw [List.idxOf_cons_ne _ (ne_of_mem_of_not_mem ha hn).symm,
      List.idxOf_cons_ne _ (ne_of_mem_of_not_mem hb hn).symm]
    exact Nat.succ_lt_succ hlt
  induction names generalizing seen with
  | nil => exact .nil
  | cons n names ih =>
    rw [firstNames]
    split
    · next hn => exact step (fun h => not_mem_of_mem_firstNames h hn) ih
    · have hn : n ∉ firstNames (seen.insert n) names := fun h =>
        not_mem_of_mem_firstNames h (by simp)
      refine List.pairwise_cons.2 ⟨fun m hm => ?_, step hn ih⟩
      rw [List.idxOf_cons_self, List.idxOf_cons_ne _ (ne_of_mem_of_not_mem hm hn).symm]
      exact Nat.succ_pos _

theorem exists_last (h : name ∈ all.map Prod.fst) : ∃ form before after,
    all = before ++ (name, form) :: after ∧ name ∉ after.map Prod.fst := by
  induction all with
  | nil => cases h
  | cons cell all ih =>
    by_cases ha : name ∈ all.map Prod.fst
    · obtain ⟨form, before, after, rfl, hn⟩ := ih ha
      exact ⟨form, cell :: before, after, rfl, hn⟩
    · obtain rfl : name = cell.1 := by simpa [ha] using h
      exact ⟨cell.2, [], all, rfl, ha⟩

theorem getD_ofList (before : List (String × String)) {after : List (String × String)}
    (h : name ∉ after.map Prod.fst) :
    (Std.ExtTreeMap.ofList (before ++ (name, form) :: after) compare).getD name "" = form := by
  have hc : (after.map Prod.fst).contains name = false := by simpa using h
  rw [Std.ExtTreeMap.ofList_eq_insertMany_empty, Std.ExtTreeMap.insertMany_append,
    Std.ExtTreeMap.insertMany_cons, Std.ExtTreeMap.getD_insertMany_list_of_contains_eq_false hc,
    Std.ExtTreeMap.getD_insert_self]

theorem merges_ofPairs (all : List (String × String)) (version : String) :
    Merges all (ofPairs all version).cells := by
  constructor
  · exact List.pairwise_map.2 pairwise_firstNames
  · intro name form
    constructor
    · intro h
      obtain ⟨_, hn, he⟩ := List.mem_map.1 h
      obtain ⟨rfl, rfl⟩ := Prod.mk.inj he
      obtain ⟨form, before, after, rfl, ha⟩ := exists_last (mem_firstNames.1 hn).1
      exact ⟨before, after, by rw [getD_ofList before ha], ha⟩
    · rintro ⟨before, after, rfl, ha⟩
      have hn : name ∈ (before ++ (name, form) :: after).map Prod.fst :=
        List.mem_map_of_mem (f := Prod.fst) (a := (name, form)) (by simp)
      refine List.mem_map.2 ⟨name, mem_firstNames.2 ⟨hn, by simp⟩, ?_⟩
      rw [getD_ofList before ha]

theorem Merges.unique (h : Merges all cells) (h' : Merges all cells') : cells = cells' := by
  have nodup : ∀ {cells}, Merges all cells → cells.Nodup := fun h =>
    h.ordered.imp fun hlt he => by simp [he] at hlt
  have hperm : cells.Perm cells' := (List.perm_ext_iff_of_nodup (nodup h) (nodup h')).2
    fun cell => (h.mem_iff cell.1 cell.2).trans (h'.mem_iff cell.1 cell.2).symm
  exact hperm.eq_of_pairwise (fun a b _ _ hab hba => absurd hab (Nat.lt_asymm hba)) h.ordered
    h'.ordered

theorem ofPairs_eq_iff :
    ofPairs all version = file ↔ Merges all file.cells ∧ version = file.version := by
  constructor
  · rintro rfl
    exact ⟨merges_ofPairs all version, rfl⟩
  · rintro ⟨h, rfl⟩
    have hcells := (merges_ofPairs all file.version).unique h
    cases file
    simp_all [ofPairs]

end FormulaSheet.SheetFile
