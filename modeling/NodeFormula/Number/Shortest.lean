import NodeFormula.Number.Double

/-!
# Shortest digits

A float is written with the fewest digits that read back to it, and among those the nearest to its
value.  On each decimal grid only the two neighbours of the value can read back.
-/

namespace NodeFormula.Number

/-- The decimal number `digits · 10 ^ exponent`. -/
structure Decimal where
  digits : Nat
  exponent : Int
deriving DecidableEq, Repr

def compareScaled (a : Nat) (i : Int) (n : Nat) (j : Int) : Ordering :=
  compare (a * Nat.pow 10 i.toNat * Nat.pow 2 (-j).toNat)
    (n * Nat.pow 2 j.toNat * Nat.pow 10 (-i).toNat)

/--
Whether a decimal rounds to the magnitude of a float: it lies between the midpoints to its
neighbours, which are included exactly when the mantissa is even.
-/
def ExactFloat.readsBack (x : ExactFloat) (d : Decimal) : Bool :=
  let lower := if x.narrowBelow then 4 * x.mantissa - 1 else 4 * x.mantissa - 2
  let upper := 4 * x.mantissa + 2
  let inclusive := x.mantissa % 2 == 0
  let low := compareScaled d.digits d.exponent lower (x.exponent - 2)
  let high := compareScaled d.digits d.exponent upper (x.exponent - 2)
  (low == .gt || (inclusive && low == .eq)) && (high == .lt || (inclusive && high == .eq))

/-- The least `k` with magnitude below `10 ^ k`, for a magnitude that is not zero. -/
def ExactFloat.scale (x : ExactFloat) : Int :=
  let estimate := Int.fdiv (((Nat.log2 x.mantissa : Int) + x.exponent) * 30103) 100000
  let isBelow := fun k : Int => compareScaled 1 k x.mantissa x.exponent == .gt
  if isBelow (estimate - 1) then estimate - 1
  else if isBelow estimate then estimate
  else if isBelow (estimate + 1) then estimate + 1
  else estimate + 2

/-- The neighbour on the grid that reads back, the nearer one if both do. -/
def ExactFloat.onGrid? (x : ExactFloat) (grid : Int) : Option Decimal :=
  let (numerator, denominator) := x.fraction
  let scaled := numerator * Nat.pow 10 (-grid).toNat
  let unit := denominator * Nat.pow 10 grid.toNat
  let below : Decimal := ⟨scaled / unit, grid⟩
  let above : Decimal := ⟨scaled / unit + 1, grid⟩
  match x.readsBack below, x.readsBack above with
  | true, true => some ⟨roundQuotient scaled unit, grid⟩
  | true, false => some below
  | false, true => some above
  | false, false => none

/-- Move trailing zeros of the digits into the exponent, at most `fuel` of them. -/
def Decimal.strip (fuel : Nat) (d : Decimal) : Decimal :=
  match fuel with
  | 0 => d
  | fuel + 1 =>
    if d.digits ≠ 0 && d.digits % 10 = 0 then strip fuel ⟨d.digits / 10, d.exponent + 1⟩ else d

/-- The shortest decimal that reads back; seventeen digits always suffice. -/
def ExactFloat.shortest (x : ExactFloat) : Decimal :=
  if x.mantissa = 0 then ⟨0, 0⟩
  else
    let scale := x.scale
    let found := (List.range 17).findSome? fun (n : Nat) => x.onGrid? (scale - ((n : Int) + 1))
    (found.getD ⟨(x.fraction).1, 0⟩).strip 20

end NodeFormula.Number
