import NodeFormula.Number.Shortest

/-!
# Written numbers

Floats in messages and outlines use shortest digits: positional while the decimal exponent of the
first digit lies in `[-4, 16)`, and scientific with at least two exponent digits outside.  Mesh
coordinates use eight places after the first digit and always an exponent.
-/

namespace NodeFormula.Number

def digitsOf (n : Nat) : List Char := Nat.toDigits 10 n

def padded (width n : Nat) : List Char :=
  let digits := digitsOf n
  List.replicate (width - digits.length) '0' ++ digits

/-- The text of an exponent: mark, sign and at least two digits. -/
def exponentText (exponent : Int) : List Char :=
  'e' :: (if exponent < 0 then '-' else '+') :: padded 2 exponent.natAbs

def Decimal.text (d : Decimal) : List Char :=
  let digits := digitsOf d.digits
  let count : Int := digits.length
  let first := d.exponent + count - 1
  if -4 ≤ first && first < 16 then
    if first < 0 then
      '0' :: '.' :: List.replicate (-first - 1).toNat '0' ++ digits
    else
      let whole := (first + 1).toNat
      if digits.length ≤ whole then
        digits ++ List.replicate (whole - digits.length) '0' ++ ['.', '0']
      else digits.take whole ++ '.' :: digits.drop whole
  else
    match digits with
    | [] => []
    | [digit] => digit :: exponentText first
    | digit :: rest => digit :: '.' :: rest ++ exponentText first

def Double.written (x : Double) : String :=
  if x.isNaN then "nan"
  else if x.isInf then if x.isNegative then "-inf" else "inf"
  else
    let exact := x.exact
    let magnitude := if exact.mantissa = 0 then ['0', '.', '0'] else exact.shortest.text
    String.ofList (if exact.negative then '-' :: magnitude else magnitude)

def showFloat (x : Float) : String := (Double.ofFloat x).written

def showInt (n : Int) : String :=
  String.ofList (if n < 0 then '-' :: digitsOf n.natAbs else digitsOf n.natAbs)

/-- Scientific notation with `places` digits after the point, halves to even. -/
def ExactFloat.scientific (places : Nat) (x : ExactFloat) : List Char :=
  let sign := if x.negative then ['-'] else []
  let (digits, first) :=
    if x.mantissa = 0 then (0, (0 : Int))
    else
      let (numerator, denominator) := x.fraction
      let first := x.scale - 1
      let grid := first - places
      let rounded := roundQuotient (numerator * Nat.pow 10 (-grid).toNat)
        (denominator * Nat.pow 10 grid.toNat)
      if rounded = Nat.pow 10 (places + 1) then (Nat.pow 10 places, first + 1) else (rounded, first)
  let text := padded (places + 1) digits
  sign ++ text.take 1 ++ (if places = 0 then [] else '.' :: text.drop 1) ++ exponentText first

/-- Positional notation with `places` digits after the point, halves to even. -/
def ExactFloat.fixed (places : Nat) (x : ExactFloat) : List Char :=
  let sign := if x.negative then ['-'] else []
  let (numerator, denominator) := x.fraction
  let rounded := roundQuotient (numerator * Nat.pow 10 places) denominator
  let text := padded (places + 1) rounded
  let whole := text.length - places
  sign ++ text.take whole ++ (if places = 0 then [] else '.' :: text.drop whole)

/-- The written form of a mesh coordinate; what is nearly zero is zero. -/
def showCoordinate (x : Float) : String :=
  if x.isNaN then "nan"
  else if x.isInf then if x < 0.0 then "-inf" else "inf"
  else if x.abs < 1e-9 then "0"
  else String.ofList ((ExactFloat.ofBits x.toBits).scientific 8)

end NodeFormula.Number
