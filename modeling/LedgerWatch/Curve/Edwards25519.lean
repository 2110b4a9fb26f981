import LedgerWatch.Bytes

/-!
# Points of the twisted Edwards curve over the field of 2²⁵⁵ - 19 elements

The curve is `-x² + y² = 1 + d x² y²`. Thirty-two bytes name a point by its `y`, lowest byte
first, the top bit apart; they do when `(y² - 1) / (d y² + 1)` is a square, which is then `x²`.
-/

namespace LedgerWatch.Curve.Edwards25519

def fieldSize : Nat := Nat.pow 2 255 - 19

/-- The curve's `d`, which is -121665/121666 in the field. -/
def d : Nat := 37095705934669439343138083508754565189542113879843219016388785533085940283555

/-- Powers by squaring, reduced at each step. -/
def powMod (base exponent modulus : Nat) : Nat :=
  if h : exponent = 0 then 1 % modulus
  else
    let half := powMod base (exponent / 2) modulus
    let square := half * half % modulus
    if exponent % 2 = 0 then square else square * base % modulus
termination_by exponent
decreasing_by omega

/-- Euler's criterion; zero counts as a square. -/
def isSquare (n : Nat) : Bool :=
  powMod n ((fieldSize - 1) / 2) fieldSize ≤ 1

def isPoint (bytes : Bytes) : Bool :=
  let y := bytes.toNatLE % Nat.pow 2 255
  let y2 := y * y % fieldSize
  let numerator := y2 + (fieldSize - 1)
  let denominator := d * y2 + 1
  isSquare (numerator * denominator % fieldSize)

end LedgerWatch.Curve.Edwards25519
