import FormulaSheet.Number.Nearest

namespace FormulaSheet.Binary

/-- The significand of a finite double: its value is `significand bits * 2 ^ exponent bits`. -/
def significand (bits : Nat) : Nat :=
  if bits < binade then bits else binade + bits % binade

def exponent (bits : Nat) : Int :=
  if bits < binade then -1074 else (bits / binade : Nat) - 1075

def exact (bits : Nat) : Decimal :=
  match exponent bits with
  | .ofNat n => ⟨significand bits * Nat.pow 2 n, 0⟩
  | .negSucc n => ⟨significand bits * Nat.pow 5 (n + 1), .negSucc n⟩

def ratio (bits : Nat) : Nat × Nat := scale (significand bits) 1 (exponent bits)

/-- The neighbour of a double on the grid of multiples of `10 ^ k` that reads back as it: the
closer one if both do, and the upper one of two that are equally close. -/
def onGrid? (bits : Nat) (k : Int) : Option Decimal :=
  let num := (ratio bits).1 * Nat.pow 10 (-k).toNat
  let den := (ratio bits).2 * Nat.pow 10 k.toNat
  let below : Decimal := ⟨num / den, k⟩
  let above : Decimal := ⟨num / den + 1, k⟩
  let (near, far) := if 2 * (num % den) < den then (below, above) else (above, below)
  if nearest near = bits then some near
  else if nearest far = bits then some far
  else none

/-- The exponent of a power of ten above a positive finite double: the first, or the second. -/
def ceilLog10 (bits : Nat) : Int :=
  (log2Div (ratio bits).1 (ratio bits).2 + 1) * 30103 / 100000 + 1

/-- The decimal with the fewest digits that reads back as the double: the grids are tried from
the coarsest to the finest. -/
def shortest (bits : Nat) : Decimal :=
  if bits = 0 then ⟨0, 0⟩
  else
    ((List.range 21).findSome? fun i : Nat => onGrid? bits (ceilLog10 bits - i)).getD (exact bits)

end FormulaSheet.Binary

namespace FormulaSheet

def numberText (x : Float) : String :=
  if x.isNaN then "NaN"
  else
    let bits := x.toBits.toNat
    let magnitude := bits % Binary.signBit
    let body :=
      if magnitude = Binary.infinityBits then "inf".toList else (Binary.shortest magnitude).text
    String.ofList (if bits < Binary.signBit then body else '-' :: body)

end FormulaSheet
