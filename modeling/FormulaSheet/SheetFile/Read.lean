import FormulaSheet.Json.Tree
import FormulaSheet.SheetFile.Basic

namespace FormulaSheet.SheetFile

open Json

def stringOf? : Tree → Option String
  | .string pieces => text? pieces
  | _ => none

/-- The text of a cell: an object with one member `stringForm`, or an array of that alone. -/
def recordOf? : Tree → Option String
  | .object members => do
    let members ← members? members
    let form ← field? members "stringForm"
    stringOf? form
  | .array [form] => stringOf? form
  | _ => none

def cellsOf? : Tree → Option (List (String × String))
  | .object members => members.mapM fun (key, v) => do return (← text? key, ← recordOf? v)
  | _ => none

/-- A sheet: an object with one member `cells` and one `Version`, or an array of the two. -/
def ofTree? : Tree → Option SheetFile
  | .object members => do
    let members ← members? members
    let cells ← field? members "cells"
    let version ← field? members "Version"
    return ofPairs (← cellsOf? cells) (← stringOf? version)
  | .array [cells, version] => do
    return ofPairs (← cellsOf? cells) (← stringOf? version)
  | _ => none

def read? (text : String) : Option SheetFile := do
  let v ← Json.parse text
  ofTree? v

end FormulaSheet.SheetFile
