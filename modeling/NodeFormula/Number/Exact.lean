/-!
# Floating-point numbers as exact dyadic fractions

A finite float is `± mantissa · 2 ^ exponent`.  Its digits, its truncation and its comparison with
integers are computed from this form, in natural numbers.
-/

namespace NodeFormula.Number

/-- A finite float, sign and magnitude apart. -/
structure ExactFloat where
  negative : Bool
  mantissa : Nat
  exponent : Int
  /-- The gap to the float below is half the gap to the float above. -/
  narrowBelow : Bool
deriving DecidableEq, Repr

namespace ExactFloat

def ofBits (bits : UInt64) : ExactFloat :=
  let biased := ((bits >>> 52) &&& 0x7FF).toNat
  let fraction := (bits &&& 0xFFFFFFFFFFFFF).toNat
  let negative := bits >>> 63 == 1
  if biased == 0 then ⟨negative, fraction, -1074, false⟩
  else ⟨negative, Nat.pow 2 52 + fraction, (biased : Int) - 1075, fraction == 0 && biased > 1⟩

/-- The exact value of a float, unless it is infinite or not a number. -/
def ofFloat? (x : Float) : Option ExactFloat :=
  if x.isNaN || x.isInf then none else some (ofBits x.toBits)

def fraction (x : ExactFloat) : Nat × Nat :=
  (x.mantissa * Nat.pow 2 x.exponent.toNat, Nat.pow 2 (-x.exponent).toNat)

def truncate (x : ExactFloat) : Int :=
  let (numerator, denominator) := x.fraction
  let magnitude : Int := (numerator / denominator : Nat)
  if x.negative then -magnitude else magnitude

def floor (x : ExactFloat) : Int :=
  let (numerator, denominator) := x.fraction
  Int.fdiv (if x.negative then -(numerator : Int) else numerator) denominator

def ceil (x : ExactFloat) : Int :=
  let (numerator, denominator) := x.fraction
  Int.neg (Int.fdiv (if x.negative then (numerator : Int) else -numerator) denominator)

end ExactFloat

/-- Round a quotient of naturals, halves to the even neighbour. -/
def roundQuotient (numerator denominator : Nat) : Nat :=
  let below := numerator / denominator
  let twice := 2 * (numerator % denominator)
  if twice < denominator then below
  else if denominator < twice then below + 1
  else if below % 2 = 0 then below
  else below + 1

/-- The nearest integer, halves to the even neighbour. -/
def ExactFloat.round (x : ExactFloat) : Int :=
  let (numerator, denominator) := x.fraction
  let magnitude : Int := roundQuotient numerator denominator
  if x.negative then -magnitude else magnitude

/-- The float nearest to an integer, or nothing when it exceeds every finite float. -/
def floatOfInt? (n : Int) : Option Float :=
  let magnitude := Float.ofScientific n.natAbs false 0
  if magnitude.isInf then none
  else some (if n < 0 then -magnitude else magnitude)

end NodeFormula.Number
