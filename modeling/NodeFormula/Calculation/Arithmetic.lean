import NodeFormula.Calculation.Expression

/-!
# Arithmetic of calculations

Integers stay exact; an integer and a float meet as floats.  Division of
integers rounds the exact quotient, floor division and remainder follow the
sign of the divisor, and a negative exponent makes a float.
-/

namespace NodeFormula.Calculation

open NodeFormula.Number

/-- The float nearest to a quotient of naturals with a positive divisor. -/
def ratioToFloat (numerator denominator : Nat) : Float :=
  if numerator = 0 then 0.0
  else
    let shift : Int := 66 + (Nat.log2 denominator : Int) - Nat.log2 numerator
    let scaled := numerator * Nat.pow 2 shift.toNat
    let divisor := denominator * Nat.pow 2 (-shift).toNat
    let quotient := scaled / divisor
    let sticky := if scaled % divisor = 0 then 0 else 1
    (Float.ofScientific (2 * quotient + sticky) false 0).scaleB (-(shift + 1))

def divideInts (a b : Int) : Except Problem Value :=
  if b = 0 then .error .divisionByZero
  else
    let magnitude := ratioToFloat a.natAbs b.natAbs
    if magnitude.isInf then .error .quotientTooLarge
    else .ok (.float (if (a < 0) ≠ (b < 0) then -magnitude else magnitude))

def withSignOf (magnitude sign : Float) : Float :=
  if (ExactFloat.ofBits sign.toBits).negative then -magnitude.abs else magnitude.abs

/-- The truncated remainder, with the sign of the dividend, for a divisor that is not zero. -/
def floatModulo (a b : Float) : Float :=
  if a.isInf || a.isNaN || b.isNaN then 0.0 / 0.0
  else if b.isInf then a
  else
    let x := ExactFloat.ofBits a.toBits
    let y := ExactFloat.ofBits b.toBits
    let low := min x.exponent y.exponent
    let left := x.mantissa * Nat.pow 2 (x.exponent - low).toNat
    let right := y.mantissa * Nat.pow 2 (y.exponent - low).toNat
    withSignOf
      (ratioToFloat (left % right * Nat.pow 2 low.toNat) (Nat.pow 2 (-low).toNat)) a

/-- Whether a truncated remainder has to be moved by the divisor to get the divisor's sign. -/
def needsShift (remainder b : Float) : Bool :=
  !(remainder == 0.0) && decide (b < 0.0) != decide (remainder < 0.0)

/-- The remainder with the sign of the divisor, for a divisor that is not zero. -/
def floatRemainder (a b : Float) : Float :=
  let remainder := floatModulo a b
  if remainder == 0.0 then withSignOf 0.0 b
  else if needsShift remainder b then remainder + b
  else remainder

def floatFloorDivide (a b : Float) : Float :=
  let remainder := floatModulo a b
  let quotient := (a - remainder) / b
  let quotient := if needsShift remainder b then quotient - 1.0 else quotient
  if quotient == 0.0 then withSignOf 0.0 (a / b)
  else
    let floor := quotient.floor
    if quotient - floor > 0.5 then floor + 1.0 else floor

def isOddFloat (x : Float) : Bool :=
  match ExactFloat.ofFloat? x with
  | none => false
  | some exact =>
    let (numerator, denominator) := exact.fraction
    numerator % denominator == 0 && (numerator / denominator) % 2 == 1

def isWholeFloat (x : Float) : Bool :=
  match ExactFloat.ofFloat? x with
  | none => false
  | some exact =>
    let (numerator, denominator) := exact.fraction
    numerator % denominator == 0

def pi : Float := 3.141592653589793

/-- The power of floats; a fractional power of a negative number is complex. -/
def powerFloats (a b : Float) : Except Problem Value :=
  if b == 0.0 || a == 1.0 then .ok (.float 1.0)
  else if a.isNaN || b.isNaN then .ok (.float (0.0 / 0.0))
  else if a == 0.0 && b < 0.0 then .error .zeroToNegativePower
  else if a < 0.0 && !a.isInf && !b.isInf && !isWholeFloat b then
    let length := (-a).pow b
    let angle := pi * b
    .ok (.complex (length * angle.cos) (length * angle.sin))
  else
    let result := a.pow b
    if result.isInf && !a.isInf && !b.isInf then .error .powerTooLarge
    else .ok (.float result)

def powerInts (a b : Int) : Except Problem Value := do
  if 0 ≤ b then return .int (Int.pow a b.toNat)
  let base ← (Value.int a).toFloat
  let exponent ← (Value.int b).toFloat
  powerFloats base exponent

def compareIntFloat (n : Int) (x : Float) : Option Ordering :=
  if x.isNaN then none
  else if x.isInf then some (if x < 0.0 then .gt else .lt)
  else
    let exact := ExactFloat.ofBits x.toBits
    let (numerator, denominator) := exact.fraction
    let signed : Int := if exact.negative then -(numerator : Int) else numerator
    some (compare (n * denominator) signed)

def compareFloats (a b : Float) : Option Ordering :=
  if a < b then some .lt else if a > b then some .gt else if a == b then some .eq else none

def compareNumbers (left right : Value) : Option Ordering :=
  match left.integer?, right.integer?, left, right with
  | some a, some b, _, _ => some (compare a b)
  | some a, none, _, .float y => compareIntFloat a y
  | none, some b, .float x, _ => (compareIntFloat b x).map Ordering.swap
  | none, none, .float x, .float y => compareFloats x y
  | _, _, _, _ => none

mutual

def Value.same : Value → Value → Bool
  | .nothing, .nothing => true
  | .text a, .text b => a == b
  | .function a _, .function b _ => a == b
  | .tuple a, .tuple b => Value.sameAll a b
  | a, b => a.isNumber && b.isNumber && compareNumbers a b == some .eq

def Value.sameAll : List Value → List Value → Bool
  | [], [] => true
  | a :: as, b :: bs => Value.same a b && Value.sameAll as bs
  | _, _ => false

end

def Comparison.mark : Comparison → String
  | .lt => "<"
  | .le => "<="
  | .gt => ">"
  | .ge => ">="
  | .eq => "=="
  | .ne => "!="

def Comparison.admits : Comparison → Ordering → Bool
  | .lt, order => order == .lt
  | .le, order => order != .gt
  | .gt, order => order == .gt
  | .ge, order => order != .lt
  | .eq, order => order == .eq
  | .ne, order => order != .eq

def Comparison.onAtoms (op : Comparison) (left right : Value) : Except Problem Bool :=
  match left, right with
  | .text a, .text b => .ok (op.admits (compare a b))
  | left, right =>
    if left.isNumber && right.isNumber then
      .ok ((compareNumbers left right).any op.admits)
    else .error (.wrongType ("'" ++ op.mark ++ "' not supported between instances of '" ++
      left.typeName ++ "' and '" ++ right.typeName ++ "'"))

/-- Compare tuples by their first different items, or by their lengths. -/
def Comparison.onTuples (op : Comparison) (left right : List Value) : Except Problem Bool :=
  match (left.zip right).find? fun pair => !pair.1.same pair.2 with
  | some (a, b) => op.onAtoms a b
  | none => .ok (op.admits (compare left.length right.length))

def Comparison.apply (op : Comparison) (left right : Value) : Except Problem Bool :=
  match op, left, right with
  | .eq, left, right => .ok (left.same right)
  | .ne, left, right => .ok (!left.same right)
  | op, .tuple a, .tuple b => op.onTuples a b
  | op, left, right => op.onAtoms left right

def Binary.mark : Binary → String
  | .bitOr => "|"
  | .bitXor => "^"
  | .bitAnd => "&"
  | .shiftLeft => "<<"
  | .shiftRight => ">>"
  | .add => "+"
  | .sub => "-"
  | .mul => "*"
  | .div => "/"
  | .floorDiv => "//"
  | .rem => "%"
  | .pow => "** or pow()"

def Binary.unsupported (op : Binary) (left right : Value) : Except Problem Value :=
  .error (.wrongType ("unsupported operand type(s) for " ++ op.mark ++ ": '" ++ left.typeName ++
    "' and '" ++ right.typeName ++ "'"))

/-- The bits of an integer, or of its complement when it is negative. -/
def bitsOf (n : Int) : Nat :=
  if n < 0 then (-1 - n).toNat else n.toNat

def ofBits (negative : Bool) (bits : Nat) : Int :=
  if negative then -1 - bits else bits

def bitsWithout (a b : Nat) : Nat := a - (a &&& b)

def intAnd (a b : Int) : Int :=
  match decide (a < 0), decide (b < 0) with
  | false, false => ofBits false (bitsOf a &&& bitsOf b)
  | false, true => ofBits false (bitsWithout (bitsOf a) (bitsOf b))
  | true, false => ofBits false (bitsWithout (bitsOf b) (bitsOf a))
  | true, true => ofBits true (bitsOf a ||| bitsOf b)

def Binary.onInts (op : Binary) (a b : Int) : Except Problem Value :=
  match op with
  | .bitOr => .ok (.int (-1 - intAnd (-1 - a) (-1 - b)))
  | .bitXor => .ok (.int (ofBits ((a < 0) != (b < 0)) (bitsOf a ^^^ bitsOf b)))
  | .bitAnd => .ok (.int (intAnd a b))
  | .shiftLeft =>
    if b < 0 then .error (.wrongValue "negative shift count")
      else .ok (.int (a * Nat.pow 2 b.toNat))
  | .shiftRight =>
    if b < 0 then .error (.wrongValue "negative shift count")
    else .ok (.int (Int.fdiv a (Nat.pow 2 b.toNat)))
  | .add => .ok (.int (a + b))
  | .sub => .ok (.int (a - b))
  | .mul => .ok (.int (a * b))
  | .div => divideInts a b
  | .floorDiv => if b = 0 then .error .floorDivisionByZero else .ok (.int (Int.fdiv a b))
  | .rem => if b = 0 then .error .remainderByZero else .ok (.int (Int.fmod a b))
  | .pow => powerInts a b

def Binary.onFloats (op : Binary) (a b : Float) : Except Problem Value :=
  match op with
  | .add => .ok (.float (a + b))
  | .sub => .ok (.float (a - b))
  | .mul => .ok (.float (a * b))
  | .div => if b == 0.0 then .error .floatDivisionByZero else .ok (.float (a / b))
  | .floorDiv =>
    if b == 0.0 then .error .floatFloorDivisionByZero else .ok (.float (floatFloorDivide a b))
  | .rem => if b == 0.0 then .error .floatRemainderByZero else .ok (.float (floatRemainder a b))
  | .pow => powerFloats a b
  | op => op.unsupported (.float a) (.float b)

def Binary.isBitwise : Binary → Bool
  | .bitOr | .bitXor | .bitAnd | .shiftLeft | .shiftRight => true
  | _ => false

/-- Repeat a text or a tuple; a negative count counts as zero. -/
def Value.repeated (sequence count : Value) : Except Problem Value :=
  match count.integer?, sequence with
  | some count, sequence =>
    if (Nat.pow 2 63 : Int) ≤ count || count < -(Nat.pow 2 63 : Int) then .error .countTooLarge
    else
      match sequence with
      | .text word => .ok (.text (String.join (List.replicate count.toNat word)))
      | .tuple items => .ok (.tuple (List.replicate count.toNat items).flatten)
      | other => .ok other
  | none, _ => .error (.wrongType
      ("can't multiply sequence by non-int of type '" ++ count.typeName ++ "'"))

def Value.isSequence : Value → Bool
  | .text _ | .tuple _ => true
  | _ => false

def Binary.onOthers (op : Binary) (left right : Value) : Except Problem Value :=
  match op, left, right with
  | .add, .text a, .text b => .ok (.text (a ++ b))
  | .add, .tuple a, .tuple b => .ok (.tuple (a ++ b))
  | .rem, .text text, .tuple [] => .ok (.text text)
  | .rem, .text _, _ =>
    .error (.wrongType "not all arguments converted during string formatting")
  | op, left, right =>
    if op = .mul && left.isSequence then left.repeated right
    else if op = .mul && right.isSequence then right.repeated left
    else if op = .add && left.isSequence then
      .error (.wrongType ("can only concatenate " ++ left.typeName ++ " (not \"" ++
        right.typeName ++ "\") to " ++ left.typeName))
    else op.unsupported left right

def Binary.apply (op : Binary) (left right : Value) : Except Problem Value :=
  match left.integer?, right.integer? with
  | some a, some b =>
    match op, left, right with
    | .bitAnd, .bool x, .bool y => .ok (.bool (x && y))
    | .bitOr, .bool x, .bool y => .ok (.bool (x || y))
    | .bitXor, .bool x, .bool y => .ok (.bool (x != y))
    | _, _, _ => op.onInts a b
  | _, _ =>
    if left.isNumber && right.isNumber && !op.isBitwise then do
      op.onFloats (← left.toFloat) (← right.toFloat)
    else op.onOthers left right

def Unary.apply (op : Unary) (operand : Value) : Except Problem Value :=
  let unsupported := fun (mark : String) => Except.error (Problem.wrongType
    ("bad operand type for unary " ++ mark ++ ": '" ++ operand.typeName ++ "'"))
  match op, operand.integer?, operand with
  | .plus, some n, _ => .ok (.int n)
  | .minus, some n, _ => .ok (.int (-n))
  | .invert, some n, _ => .ok (.int (-n - 1))
  | .plus, none, .float x => .ok (.float x)
  | .minus, none, .float x => .ok (.float (-x))
  | .plus, none, _ => unsupported "+"
  | .minus, none, _ => unsupported "-"
  | .invert, none, _ => unsupported "~"

end NodeFormula.Calculation
