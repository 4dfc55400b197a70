import FormulaSheet.FileTree
import FormulaSheet.Formula.Parse

namespace FormulaSheet

inductive SheetError where
  | invalidName (name : String)
  | format (cause : FormatError)
  | circular (cell : String) (cycle : List String)
  | io (path : String) (cause : IoError)
  | malformed (path : String)
  | versionMismatch (expected found : String)
  | invalidCell (cell : String) (cause : SheetError)
deriving DecidableEq, Repr

namespace SheetError

/-- Stands for what is wrong with a text that is no saved sheet. -/
def jsonDetail : String := "<json error>"

def message : SheetError → String
  | invalidName name => s!"invalid cell name '{name}'"
  | format cause => s!"invalid formula: {cause.message}"
  | circular cell cycle =>
    let path := String.intercalate " -> " cycle
    s!"setting {cell} would create a circular dependency ({path})"
  | io path cause => s!"IO error on {path}: {cause.message}"
  | malformed path => s!"malformed spreadsheet file {path}: {jsonDetail}"
  | versionMismatch expected found =>
    s!"version mismatch: file has '{found}', expected '{expected}'"
  | invalidCell cell cause => s!"cell {cell} could not be restored: {cause.message}"

def messages : SheetError → List String
  | e@(format cause) => [e.message, cause.message]
  | e@(io _ cause) => [e.message, cause.message]
  | e@(malformed _) => [e.message, jsonDetail]
  | e@(invalidCell _ cause) => e.message :: cause.messages
  | e => [e.message]

end SheetError

end FormulaSheet
