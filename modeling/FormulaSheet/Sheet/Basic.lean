import FormulaSheet.Content
import FormulaSheet.Graph.Walk
import FormulaSheet.Text.Printable

namespace FormulaSheet

structure Options where
  version : String := "default"
  naming : Naming := {}

/-- A cell that is not empty. A formula keeps its last value. -/
inductive Cell where
  | number (x : Float)
  | text (s : String)
  | formula (f : Formula) (value : Except EvalError Float)

namespace Cell

def content : Cell → Content
  | number x => .number x
  | text s => .text s
  | formula f _ => .formula f

def value : Cell → Value
  | number x => .number x
  | text s => .text s
  | formula _ v => .ofResult v

end Cell

/-- The cells by name; in the graph stands `(s, t)` where the formula of `t` reads `s`. -/
structure Sheet where
  cells : Std.ExtTreeMap String Cell := ∅
  graph : Graph := {}
  options : Options := {}
  changed : Bool := false

namespace Sheet

def size (s : Sheet) : Nat := s.cells.size

def names (s : Sheet) : List String := s.cells.keys

def summary (s : Sheet) : String :=
  "Spreadsheet \x7b cells: " ++ toString s.size ++
    ", options: SheetOptions \x7b version: " ++ quoted s.options.version ++
    ", .. \x7d, changed: " ++ toString s.changed ++ " \x7d"

end Sheet

end FormulaSheet
