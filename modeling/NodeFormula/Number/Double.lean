import NodeFormula.Number.Exact

/-!
# Double-precision numbers

The floats of formulas are kept by their bits.  Reading digits, taking the
integer part, negating and comparing with zero are exact on the bits; sums and
quotients are those of the machine.
-/

namespace NodeFormula.Number

structure Double where
  bits : UInt64
deriving DecidableEq, Repr

namespace Double

def ofFloat (x : Float) : Double := ⟨x.toBits⟩

def toFloat (x : Double) : Float := Float.ofBits x.bits

def zero : Double := ⟨0⟩

def one : Double := ⟨0x3FF0000000000000⟩

def infinity : Double := ⟨0x7FF0000000000000⟩

def isNegative (x : Double) : Bool := x.bits >>> 63 == 1

def abs (x : Double) : Double := ⟨x.bits &&& 0x7FFFFFFFFFFFFFFF⟩

def negate (x : Double) : Double := ⟨x.bits ^^^ 0x8000000000000000⟩

def isZero (x : Double) : Bool := x.abs == zero

def isInf (x : Double) : Bool := x.abs == infinity

def isNaN (x : Double) : Bool := infinity.bits < x.abs.bits

def isAtMostZero (x : Double) : Bool := x.isZero || (x.isNegative && !x.isNaN)

def exact (x : Double) : ExactFloat := .ofBits x.bits

/--
The double nearest to a fraction, halves to the even neighbour.  A mantissa that is rounded up to 54
bits carries into the exponent by itself.
-/
def ofFraction (numerator denominator : Nat) : Double :=
  if numerator = 0 then zero
  else
    let estimate : Int := (numerator.log2 : Int) - denominator.log2
    let reaches :=
      denominator * Nat.pow 2 estimate.toNat ≤ numerator * Nat.pow 2 (-estimate).toNat
    let exponent := max ((if reaches then estimate else estimate - 1) - 52) (-1074)
    let mantissa := roundQuotient (numerator * Nat.pow 2 (-exponent).toNat)
      (denominator * Nat.pow 2 exponent.toNat)
    let bits := (exponent + 1074).toNat * Nat.pow 2 52 + mantissa
    if bits < infinity.bits.toNat then ⟨UInt64.ofNat bits⟩ else infinity

def ofDecimal (digits : Nat) (exponent : Int) : Double :=
  ofFraction (digits * Nat.pow 10 exponent.toNat) (Nat.pow 10 (-exponent).toNat)

/-- The double nearest to an integer, or nothing beyond every finite double. -/
def ofInt? (n : Int) : Option Double :=
  let magnitude := ofFraction n.natAbs 1
  if magnitude.isInf then none else some (if n < 0 then magnitude.negate else magnitude)

end Double

end NodeFormula.Number
