import NodeFormula.Number.Double
import NodeFormula.Text.Class

/-!
# Reading numbers

Digits of any script count, so the same functions read the literals of a
formula and the texts handed to a calculation.
-/

namespace NodeFormula.Number

open NodeFormula.Text

def natOfDigits (digits : List Char) : Nat :=
  digits.foldl (fun value c => 10 * value + (digitValue? c).getD 0) 0

def floatOfDecimal (digits : Nat) (exponent : Int) : Float :=
  if exponent < 0 then Float.ofScientific digits true exponent.natAbs
  else Float.ofScientific digits false exponent.toNat

def Double.ofPoint (text : List Char) : Double :=
  let whole := text.takeWhile isDigit
  let places := ((text.dropWhile isDigit).drop 1).takeWhile isDigit
  .ofDecimal (natOfDigits (whole ++ places)) (-(places.length : Int))

end NodeFormula.Number
