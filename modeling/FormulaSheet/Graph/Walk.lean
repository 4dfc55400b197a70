import FormulaSheet.Graph.Basic

namespace FormulaSheet

/-- A cycle of dependencies: the name where it was entered, and on to the same name again. -/
structure CircularDependency where
  cycle : List String
deriving DecidableEq, Repr

def CircularDependency.path (e : CircularDependency) : String :=
  String.intercalate " -> " e.cycle

def CircularDependency.message (e : CircularDependency) : String :=
  s!"circular dependency: {e.path}"

namespace Graph

inductive Mark where
  | inProgress
  | done
deriving DecidableEq

/-- A name on the way from the start, and the dependents of it that have not been looked at. -/
structure Frame where
  name : String
  children : List String

def cycleAt (child : String) (stack : List Frame) : List String :=
  child :: (((stack.map Frame.name).takeWhile (· ≠ child)).reverse ++ [child])

/-- What is left to do on the stack: two steps for each child, one for each frame. -/
def work : List Frame → Nat
  | [] => 0
  | f :: stack => 2 * f.children.length + 1 + work stack

/-- The depth-first walk. `unexplored` holds the dependents of the names that have not been met,
so that it shrinks whenever a name with dependents is met. -/
def walk (unexplored : Adjacency) (marks : Std.ExtTreeMap String Mark) (finished : List String) :
    List Frame → Except CircularDependency (List String)
  | [] => .ok finished
  | ⟨name, []⟩ :: stack => walk unexplored (marks.insert name .done) (name :: finished) stack
  | ⟨name, child :: children⟩ :: stack =>
    match marks[child]? with
    | some .done => walk unexplored marks finished (⟨name, children⟩ :: stack)
    | some .inProgress => .error ⟨cycleAt child (⟨name, children⟩ :: stack)⟩
    | none =>
      walk (unexplored.erase child) (marks.insert child .inProgress) finished
        (⟨child, (unexplored.neighbours child).toList⟩ :: ⟨name, children⟩ :: stack)
termination_by stack => (unexplored.size, work stack)
decreasing_by
  · exact Prod.Lex.right _ (by simp [work])
  · exact Prod.Lex.right _ (by simp [work])
  · by_cases h : child ∈ unexplored
    · exact Prod.Lex.left _ _ (Adjacency.size_erase_lt h)
    · have hs : (unexplored.erase child).size = unexplored.size := by
        simp [Std.ExtTreeMap.size_erase, h]
      have hn : unexplored.neighbours child = ∅ := Std.ExtTreeMap.getD_eq_fallback h
      rw [hs, hn]
      exact Prod.Lex.right _ (by simp [work, Nat.mul_add]; omega)

/-- `start` and all that depends on it, each name after those of them that it depends on. The
dependents of a name are met in ascending order, and the order is that of finishing, reversed. -/
def recalculationOrder (g : Graph) (start : String) :
    Except CircularDependency (List String) :=
  walk (g.forward.erase start) ((∅ : Std.ExtTreeMap String Mark).insert start .inProgress) []
    [⟨start, (g.dependents start).toList⟩]

end Graph

end FormulaSheet
