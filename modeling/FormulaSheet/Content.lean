import FormulaSheet.Formula.Parse
import FormulaSheet.Formula.Evaluate
import FormulaSheet.Text.Blank

namespace FormulaSheet

/-- What was entered into a cell. Empty text is the content of a cell that does not exist. -/
inductive Content where
  | number (x : Float)
  | text (s : String)
  | formula (f : Formula)
deriving BEq

namespace Content

/-- The content that an input stands for: a finite number, blanks around it aside; a formula
after `=`; or the input itself as text. -/
def parse (rules : Naming) (input : String) : Except FormatError Content :=
  match (readNumber (trim input.toList)).filter Float.isFinite, input.toList with
  | some x, _ => .ok (.number x)
  | none, '=' :: source => (Formula.parse rules (String.ofList source)).map .formula
  | none, _ => .ok (.text input)

def input : Content → String
  | number x => numberText x
  | text s => s
  | formula f => "=" ++ f.text

def isEmpty : Content → Bool
  | text s => s == ""
  | _ => false

def reads : Content → List String
  | formula f => f.names.toList
  | _ => []

end Content

inductive Value where
  | number (x : Float)
  | text (s : String)
  | error (e : EvalError)
deriving DecidableEq

namespace Value

def ofResult : Except EvalError Float → Value
  | .ok x => number x
  | .error e => error e

def display : Value → String
  | number x => numberText x
  | text s => s
  | error e => e.text

def number? : Value → Option Float
  | number x => some x
  | _ => none

def isError : Value → Bool
  | error _ => true
  | _ => false

end Value

end FormulaSheet
