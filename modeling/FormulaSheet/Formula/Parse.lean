import FormulaSheet.Formula.Basic
import FormulaSheet.Formula.Scan
import FormulaSheet.Number.Literal

namespace FormulaSheet

inductive FormatError where
  | empty
  | invalidToken (found : String)
  | numberOutOfRange (numeral : String)
  | invalidStart (found : String)
  | invalidEnd (last : String)
  | unexpectedToken (after found : String)
  | unbalancedParens
  | illegalNormalization (variableName normalized : String)
  | rejectedVariable (normalized : String)
deriving DecidableEq, Repr

def FormatError.message : FormatError → String
  | empty => "formula is empty"
  | invalidToken t => s!"unrecognised token '{t}'"
  | numberOutOfRange t => s!"numeric literal '{t}' is out of range"
  | invalidStart t => s!"formula cannot start with '{t}'"
  | invalidEnd t => s!"formula cannot end with '{t}'"
  | unexpectedToken after found => s!"'{found}' cannot follow '{after}'"
  | unbalancedParens => "unbalanced parentheses"
  | illegalNormalization v n => s!"variable '{v}' normalizes to '{n}', which is not a legal variable"
  | rejectedVariable v => s!"variable '{v}' was rejected by the validator"

def Naming.resolve (rules : Naming) (name : String) : Except FormatError String :=
  let normal := rules.normalize name
  if !isVariable normal then .error (.illegalNormalization name normal)
  else if !rules.accepts normal then .error (.rejectedVariable normal)
  else .ok normal

def Token.ofText (rules : Naming) (raw : String) : Except FormatError Token :=
  if raw = "(" then .ok .opening
  else if raw = ")" then .ok .closing
  else
    match Operator.ofSymbol? raw with
    | some o => .ok (.op o)
    | none =>
      if isNumeral raw then
        match (readNumber raw.toList).filter Float.isFinite with
        | some x => .ok (.number x)
        | none => .error (.numberOutOfRange raw)
      else if isVariable raw then (rules.resolve raw).map .name
      else .error (.invalidToken raw)

namespace Formula

/-- The beginning of a formula: its tokens, the latest first, and the number of open
parentheses. -/
structure Beginning where
  tokens : List Token := []
  depth : Nat := 0

def Beginning.follow (p : Beginning) (raw : String) (token : Token) : Except FormatError Unit :=
  match p.tokens with
  | [] => if token.startsOperand then .ok () else .error (.invalidStart raw)
  | last :: _ =>
    if token.startsOperand = last.endsOperand then .error (.unexpectedToken last.text raw)
    else .ok ()

def Beginning.enclose (p : Beginning) : Token → Except FormatError Nat
  | .opening => .ok (p.depth + 1)
  | .closing => if p.depth = 0 then .error .unbalancedParens else .ok (p.depth - 1)
  | _ => .ok p.depth

def Beginning.push (rules : Naming) (p : Beginning) (raw : String) :
    Except FormatError Beginning := do
  let token ← Token.ofText rules raw
  p.follow raw token
  let depth ← p.enclose token
  return ⟨token :: p.tokens, depth⟩

def Beginning.finish (p : Beginning) : Except FormatError Formula :=
  match p.tokens with
  | [] => .error .empty
  | last :: _ =>
    if !last.endsOperand then .error (.invalidEnd last.text)
    else if p.depth ≠ 0 then .error .unbalancedParens
    else .ok ⟨p.tokens.reverse⟩

def parse (rules : Naming) (source : String) : Except FormatError Formula := do
  let p ← (tokenize source).foldlM (Beginning.push rules) {}
  p.finish

end Formula

end FormulaSheet
