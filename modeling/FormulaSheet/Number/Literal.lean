import FormulaSheet.Number.Nearest

namespace FormulaSheet

def readExponent : List Char → Option Int
  | [] => some 0
  | _ :: cs =>
    let (negative, ds) :=
      match cs with
      | '-' :: ds => (true, ds)
      | '+' :: ds => (false, ds)
      | ds => (false, ds)
    if ds.isEmpty || !ds.all Char.isDigit then none
    else some (if negative then -(Decimal.ofDigits ds : Int) else Decimal.ofDigits ds)

/-- An unsigned decimal: digits with at most one point among or beside them, at least one digit,
and an optional exponent. -/
def readDecimal (cs : List Char) : Option Decimal :=
  let (mantissa, tail) := cs.span fun c => c != 'e' && c != 'E'
  let (whole, rest) := mantissa.span (· != '.')
  let places := rest.drop 1
  let ds := whole ++ places
  if ds.isEmpty || !ds.all Char.isDigit then none
  else (readExponent tail).map fun e => ⟨Decimal.ofDigits ds, e - places.length⟩

/-- The bits of an unsigned number: a decimal, or a word for infinity in any case. -/
def readMagnitude (cs : List Char) : Option Nat :=
  let word := String.ofList (cs.map Char.toLower)
  if word = "inf" ∨ word = "infinity" then some Binary.infinityBits
  else (readDecimal cs).map Binary.nearest

/-- The double that a text spells, correctly rounded; `none` if it spells no number. -/
def readNumber (cs : List Char) : Option Float :=
  let (negative, body) :=
    match cs with
    | '-' :: r => (true, r)
    | '+' :: r => (false, r)
    | r => (false, r)
  if String.ofList (body.map Char.toLower) = "nan" then some (0 / 0)
  else (readMagnitude body).map (Binary.signed negative)

end FormulaSheet
