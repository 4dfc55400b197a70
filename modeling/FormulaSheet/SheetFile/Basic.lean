import Std.Data.ExtTreeMap
import Std.Data.ExtTreeSet

namespace FormulaSheet

/-- A saved sheet: the text of each cell, in the order of loading, and the version tag. -/
structure SheetFile where
  cells : List (String × String)
  version : String
  distinct : (cells.map Prod.fst).Nodup

namespace SheetFile

def firstNames (seen : Std.ExtTreeSet String) : List String → List String
  | [] => []
  | name :: names =>
    if name ∈ seen then firstNames seen names
    else name :: firstNames (seen.insert name) names

theorem not_mem_of_mem_firstNames {seen : Std.ExtTreeSet String} {names : List String}
    {name : String} (h : name ∈ firstNames seen names) : name ∉ seen := by
  induction names generalizing seen with
  | nil => simp [firstNames] at h
  | cons n names ih =>
    rw [firstNames] at h
    split at h
    · exact ih h
    · next hn =>
      rcases List.mem_cons.1 h with rfl | h
      · exact hn
      · have := ih h
        simp only [Std.ExtTreeSet.mem_insert, not_or] at this
        exact this.2

theorem nodup_firstNames (seen : Std.ExtTreeSet String) (names : List String) :
    (firstNames seen names).Nodup := by
  induction names generalizing seen with
  | nil => simp [firstNames]
  | cons n names ih =>
    rw [firstNames]
    split
    · exact ih _
    · refine List.nodup_cons.2 ⟨fun h => ?_, ih _⟩
      have := not_mem_of_mem_firstNames h
      simp at this

/-- A repeated name keeps its first place and takes its last text. -/
def ofPairs (pairs : List (String × String)) (version : String) : SheetFile where
  cells :=
    let last := Std.ExtTreeMap.ofList pairs compare
    (firstNames ∅ (pairs.map Prod.fst)).map fun name => (name, last.getD name "")
  version := version
  distinct := by
    rw [List.map_map]
    simpa [Function.comp_def] using nodup_firstNames _ _

end SheetFile

end FormulaSheet
