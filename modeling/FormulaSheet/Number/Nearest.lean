import FormulaSheet.Number.Decimal

namespace FormulaSheet.Binary

/-- The number of doubles from a power of two up to the next: the significand has 52 bits after
its first. -/
def binade : Nat := 0x10000000000000

/-- The bits of positive infinity, which follow those of the largest finite double. -/
def infinityBits : Nat := 2047 * binade

def signBit : Nat := 2048 * binade

/-- `num / den` rounded to the nearest integer, a half going to the even neighbour. -/
def roundDiv (num den : Nat) : Nat :=
  let q := num / den
  let r := num % den
  if 2 * r < den then q else if den < 2 * r then q + 1 else q + q % 2

def scale (num den : Nat) (k : Int) : Nat × Nat :=
  (num * Nat.pow 2 k.toNat, den * Nat.pow 2 (-k).toNat)

/-- The largest `k` with `2 ^ k ≤ num / den`, for positive `num` and `den`. -/
def log2Div (num den : Nat) : Int :=
  let k := (num.log2 : Int) - den.log2
  let (a, b) := scale num den (-k)
  if a < b then k - 1 else k

/-- The bits of the double nearest to `num / den`. The significand is counted in units of `2 ^ e`;
since each binade follows the last by one step of the exponent field, a significand that rounds up
to the next power of two carries into that field. -/
def nearestDiv (num den : Nat) : Nat :=
  if num = 0 then 0
  else
    let e : Int := if log2Div num den < -1022 then -1074 else log2Div num den - 52
    let (a, b) := scale num den (-e)
    let bits := (e + 1074).toNat * binade + roundDiv a b
    if bits < infinityBits then bits else infinityBits

/-- The bits of the double nearest to a decimal. Exponents far outside the range are settled
without their powers of ten: the first bound is above the largest double, the second below half
of the smallest. -/
def nearest (d : Decimal) : Nat :=
  if d.digits = 0 then 0
  else if 400 < d.exponent then infinityBits
  else if d.exponent < -400 - d.digits.log2 then 0
  else nearestDiv (d.digits * Nat.pow 10 d.exponent.toNat) (Nat.pow 10 (-d.exponent).toNat)

def signed (negative : Bool) (bits : Nat) : Float :=
  Float.ofBits (UInt64.ofNat (if negative then signBit + bits else bits))

end FormulaSheet.Binary
