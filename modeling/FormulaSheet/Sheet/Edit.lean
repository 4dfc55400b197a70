import FormulaSheet.Sheet.Basic
import FormulaSheet.Sheet.Failure

namespace FormulaSheet

/-- What a successful edit brought about: the edited cell and then the cells whose values were
computed again, each after the cells that it reads, and whether there is something to save. -/
structure Recalculation where
  order : List String
  unsaved : Bool
deriving DecidableEq, Repr

namespace Sheet

def cellName (s : Sheet) (name : String) : Except SheetError String :=
  let normal := s.options.naming.normalize name
  if isCellName normal && s.options.naming.accepts normal then .ok normal
  else .error (.invalidName name)

def lookup (s : Sheet) (name : String) : Except EvalError Float :=
  match s.cells[name]? with
  | none => .error (.empty name)
  | some (.number x) => .ok x
  | some (.text _) => .error (.notNumber name)
  | some (.formula _ (.ok x)) => .ok x
  | some (.formula _ (.error e)) => .error (.inCell name e)

def insert (s : Sheet) (name : String) (cell : Cell) : Sheet :=
  { s with cells := s.cells.insert name cell }

def store (s : Sheet) (name : String) : Content → Sheet
  | .number x => s.insert name (.number x)
  | .text t => if t = "" then { s with cells := s.cells.erase name } else s.insert name (.text t)
  | .formula f => s.insert name (.formula f (f.evaluate s.lookup))

def refresh (s : Sheet) (name : String) : Sheet :=
  match s.cells[name]? with
  | some (.formula f _) => s.insert name (.formula f (f.evaluate s.lookup))
  | _ => s

/-- Gives a cell new content. The graph is changed first, since the walk over it tells whether
the cell would depend on itself; if so, the pairs that the cell had before are put back. -/
def put (s : Sheet) (name : String) (content : Content) :
    Except SheetError Recalculation × Sheet :=
  let before := (s.graph.dependees name).toList
  let graph := s.graph.replaceDependees name content.reads
  match graph.recalculationOrder name with
  | .error e =>
    (.error (.circular name e.cycle), { s with graph := graph.replaceDependees name before })
  | .ok order =>
    let s := order.tail.foldl refresh ({ s with graph }.store name content)
    (.ok ⟨order, true⟩, { s with changed := true })

def set (s : Sheet) (name input : String) : Except SheetError Recalculation × Sheet :=
  match s.cellName name, Content.parse s.options.naming input with
  | .error e, _ => (.error e, s)
  | .ok _, .error e => (.error (.format e), s)
  | .ok name, .ok content => s.put name content

def contents (s : Sheet) (name : String) : Except SheetError Content :=
  (s.cellName name).map fun name => (s.cells[name]?.map Cell.content).getD (.text "")

def value (s : Sheet) (name : String) : Except SheetError Value :=
  (s.cellName name).map fun name => (s.cells[name]?.map Cell.value).getD (.text "")

def allDependents (s : Sheet) (name : String) : Except SheetError (List String) := do
  let name ← s.cellName name
  match s.graph.recalculationOrder name with
  | .ok order => return order
  | .error e => throw (.circular name e.cycle)

end Sheet

end FormulaSheet
