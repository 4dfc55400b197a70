namespace FormulaSheet

/-- The decimal `digits · 10 ^ exponent`. -/
structure Decimal where
  digits : Nat
  exponent : Int
deriving DecidableEq, Repr

namespace Decimal

def ofDigits (ds : List Char) : Nat :=
  ds.foldl (fun n c => 10 * n + (c.toNat - '0'.toNat)) 0

def fraction : (places part : Nat) → List Char
  | 0, _ => []
  | n + 1, part =>
    if part = 0 then [] else Nat.digitChar (part / Nat.pow 10 n) :: fraction n (part % Nat.pow 10 n)

/-- Positional text: never an exponent, no zero at the end of a fraction and no bare point. -/
def text (d : Decimal) : List Char :=
  match d.exponent with
  | .ofNat n => Nat.toDigits 10 (d.digits * Nat.pow 10 n)
  | .negSucc n =>
    let whole := Nat.toDigits 10 (d.digits / Nat.pow 10 (n + 1))
    match fraction (n + 1) (d.digits % Nat.pow 10 (n + 1)) with
    | [] => whole
    | ds => whole ++ '.' :: ds

end Decimal

end FormulaSheet
