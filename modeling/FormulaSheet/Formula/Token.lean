import FormulaSheet.Number.Shortest

namespace FormulaSheet

inductive Operator where
  | add
  | sub
  | mul
  | div
deriving DecidableEq, Repr

namespace Operator

def symbol : Operator → Char
  | add => '+'
  | sub => '-'
  | mul => '*'
  | div => '/'

def ofSymbol? : String → Option Operator
  | "+" => some add
  | "-" => some sub
  | "*" => some mul
  | "/" => some div
  | _ => none

def isMultiplicative : Operator → Bool
  | mul | div => true
  | add | sub => false

end Operator

inductive Token where
  | number (x : Float)
  | name (v : String)
  | op (o : Operator)
  | opening
  | closing
deriving DecidableEq

namespace Token

def text : Token → String
  | number x => numberText x
  | name v => v
  | op o => String.singleton o.symbol
  | opening => "("
  | closing => ")"

/-- After such a token only an operator or `)` may stand. -/
def endsOperand : Token → Bool
  | number _ | name _ | closing => true
  | op _ | opening => false

/-- Such a token may stand first, after an operator or after `(`. -/
def startsOperand : Token → Bool
  | number _ | name _ | opening => true
  | op _ | closing => false

def name? : Token → Option String
  | name v => some v
  | _ => none

end Token

end FormulaSheet
