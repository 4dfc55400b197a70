import Std.Data.ExtTreeMap
import Std.Data.ExtTreeSet

namespace FormulaSheet

/-- A nonempty set of names for each of finitely many names. -/
abbrev Adjacency := Std.ExtTreeMap String (Std.ExtTreeSet String)

namespace Adjacency

def neighbours (m : Adjacency) (s : String) : Std.ExtTreeSet String := m.getD s ∅

def link (m : Adjacency) (s t : String) : Adjacency :=
  m.insert s ((m.neighbours s).insert t)

/-- A set that becomes empty is dropped. -/
def unlink (m : Adjacency) (s t : String) : Adjacency :=
  let rest := (m.neighbours s).erase t
  if rest.isEmpty then m.erase s else m.insert s rest

theorem size_erase_lt {m : Adjacency} {s : String} (h : s ∈ m) : (m.erase s).size < m.size := by
  have hm : m.size ≠ 0 := fun h0 => by
    rw [← Std.ExtTreeMap.eq_empty_iff_size_eq_zero] at h0
    simp [h0] at h
  rw [Std.ExtTreeMap.size_erase, if_pos (by simpa using h)]
  omega

end Adjacency

/-- A set of pairs `(s, t)`, where `t` depends on `s`, indexed from both sides. -/
structure Graph where
  forward : Adjacency := ∅
  backward : Adjacency := ∅
  size : Nat := 0

namespace Graph

def dependents (g : Graph) (s : String) : Std.ExtTreeSet String := g.forward.neighbours s

def dependees (g : Graph) (t : String) : Std.ExtTreeSet String := g.backward.neighbours t

def dependeeCount (g : Graph) (t : String) : Nat := (g.dependees t).size

def hasDependents (g : Graph) (s : String) : Bool := !(g.dependents s).isEmpty

def hasDependees (g : Graph) (t : String) : Bool := !(g.dependees t).isEmpty

def add (g : Graph) (s t : String) : Graph :=
  if t ∈ g.dependents s then g
  else ⟨g.forward.link s t, g.backward.link t s, g.size + 1⟩

def remove (g : Graph) (s t : String) : Graph :=
  if t ∈ g.dependents s then ⟨g.forward.unlink s t, g.backward.unlink t s, g.size - 1⟩
  else g

def removeDependents (g : Graph) (s : String) : Graph where
  forward := g.forward.erase s
  backward := (g.dependents s).toList.foldl (fun m t => m.unlink t s) g.backward
  size := g.size - (g.dependents s).size

def removeDependees (g : Graph) (t : String) : Graph where
  forward := (g.dependees t).toList.foldl (fun m s => m.unlink s t) g.forward
  backward := g.backward.erase t
  size := g.size - (g.dependees t).size

def replaceDependents (g : Graph) (s : String) (ts : List String) : Graph :=
  ts.foldl (fun g t => g.add s t) (g.removeDependents s)

def replaceDependees (g : Graph) (t : String) (ss : List String) : Graph :=
  ss.foldl (fun g s => g.add s t) (g.removeDependees t)

def pairs (g : Graph) : List (String × String) :=
  g.forward.toList.flatMap fun (s, ts) => ts.toList.map fun t => (s, t)

end Graph

end FormulaSheet
