import NodeFormula.Calculation.Arithmetic

/-!
# Functions of calculations

The elementary functions, rounding, combinatorics and conversions that a
calculation may call.  A function outside its domain and a result beyond every
float are problems of their own.
-/

namespace NodeFormula.Calculation

open NodeFormula.Number Float

def rootFrom (n : Nat) : Nat → Nat → Nat
  | 0, guess => guess
  | fuel + 1, guess =>
    let next := (guess + n / guess) / 2
    if next < guess then rootFrom n fuel next else guess

def integerRoot (n : Nat) : Nat :=
  if n = 0 then 0 else rootFrom n (Nat.log2 n + 2) (Nat.pow 2 (Nat.log2 n / 2 + 1))

/-- The float nearest to the root of an exact sum of squares. -/
def hypotenuse (sides : List Float) : Float :=
  if sides.any isInf then 1.0 / 0.0
  else if sides.any isNaN then 0.0 / 0.0
  else
    let exact := sides.map fun side => ExactFloat.ofBits side.toBits
    let low := exact.foldl (fun low side => min low side.exponent) 0
    let squares := exact.foldl (fun sum side =>
      let length := side.mantissa * Nat.pow 2 (side.exponent - low).toNat
      sum + length * length) 0
    let room : Nat := 66
    let scaled := squares * Nat.pow 2 (2 * room)
    let root := integerRoot scaled
    let sticky := if root * root = scaled then 0 else 1
    let exponent := low - room - 1
    ratioToFloat ((2 * root + sticky) * Nat.pow 2 exponent.toNat) (Nat.pow 2 (-exponent).toNat)

def onDomain (inside : Bool) (result : Unit → Float) : Except Problem Value :=
  if inside then .ok (.float (result ())) else .error .outsideDomain

def inRange (argument result : Float) : Except Problem Value :=
  if result.isInf && !argument.isInf then .error .outsideRange else .ok (.float result)

def toInteger (round : ExactFloat → Int) (x : Float) : Except Problem Value :=
  if x.isNaN then .error .notANumberToInteger
  else if x.isInf then .error .infinityToInteger
  else .ok (.int (round (ExactFloat.ofBits x.toBits)))

def roundBy (round : ExactFloat → Int) (value : Value) : Except Problem Value :=
  match value.integer? with
  | some n => .ok (.int n)
  | none => do toInteger round (← value.toFloat)

def asInteger (value : Value) : Except Problem Int :=
  match value.integer? with
  | some n => .ok n
  | none =>
    .error (.wrongType ("'" ++ value.typeName ++ "' object cannot be interpreted as an integer"))

def factorial : Nat → Nat
  | 0 => 1
  | n + 1 => (n + 1) * factorial n

def choose (n k : Nat) : Nat :=
  if n < k then 0 else factorial n / (factorial k * factorial (n - k))

def powerFunction (a b : Float) : Except Problem Value :=
  if b == 0.0 || a == 1.0 then .ok (.float 1.0)
  else if a.isNaN || b.isNaN then .ok (.float (0.0 / 0.0))
  else if a == 0.0 && b < 0.0 && !b.isInf then .error .outsideDomain
  else if a < 0.0 && !a.isInf && !b.isInf && !isWholeFloat b then .error .outsideDomain
  else
    let result := a.pow b
    if result.isInf && !a.isInf && !b.isInf then .error .outsideRange else .ok (.float result)

def parseInteger (text : String) : Option Int :=
  let chars := text.toList.dropWhile Text.isBlank
  let chars := (chars.reverse.dropWhile Text.isBlank).reverse
  let (sign, digits) := match chars with
    | '-' :: rest => ((-1 : Int), rest)
    | '+' :: rest => (1, rest)
    | rest => (1, rest)
  match digitRun Text.isDigit digits with
  | (first :: run, []) => some (sign * natOfDigits (first :: run))
  | _ => none

/-- A number with optional sign, point and exponent, or a special name. -/
def parseFloat (text : String) : Option Float :=
  let chars := text.toList.dropWhile Text.isBlank
  let chars := (chars.reverse.dropWhile Text.isBlank).reverse
  let (negative, body) := match chars with
    | '-' :: rest => (true, rest)
    | '+' :: rest => (false, rest)
    | rest => (false, rest)
  let signed := fun x : Float => if negative then -x else x
  let name := String.ofList (body.map Char.toLower)
  if name == "inf" || name == "infinity" then some (signed (1.0 / 0.0))
  else if name == "nan" then some (0.0 / 0.0)
  else
    let (whole, after) := digitRun Text.isDigit body
    let (places, after) := match after with
      | '.' :: after => digitRun Text.isDigit after
      | after => ([], after)
    if whole.isEmpty && places.isEmpty then none
    else
      let value := fun exponent : Int => signed (floatOfDecimal (natOfDigits (whole ++ places))
        (exponent - places.length))
      match after with
      | [] => some (value 0)
      | after =>
        match exponentPart after with
        | some (exponent, []) => some (value exponent)
        | _ => none

def convertToInt (value : Value) : Except Problem Value :=
  match value with
  | .text text =>
    match parseInteger text with
    | some n => .ok (.int n)
    | none => .error (.wrongValue ("invalid literal for int() with base 10: " ++
        NodeFormula.Text.quoted text))
  | .float x => toInteger ExactFloat.truncate x
  | value =>
    match value.integer? with
    | some n => .ok (.int n)
    | none => .error (.wrongType
        ("int() argument must be a string, a bytes-like object or a real number, not '" ++
          value.typeName ++ "'"))

def convertToFloat (value : Value) : Except Problem Float :=
  match value with
  | .text text =>
    match parseFloat text with
    | some x => .ok x
    | none => .error (.wrongValue ("could not convert string to float: " ++
        NodeFormula.Text.quoted text))
  | value =>
    if value.isNumber then value.toFloat
    else .error (.wrongType ("float() argument must be a string or a real number, not '" ++
      value.typeName ++ "'"))

def extreme (op : Comparison) (best : Value) : List Value → Except Problem Value
  | [] => .ok best
  | value :: values => do
    if ← op.apply value best then extreme op value values else extreme op best values

/-- The logarithm of a positive number; integers of any size are allowed. -/
def logarithm (value : Value) : Except Problem Float :=
  match value.integer? with
  | some n =>
    if n ≤ 0 then .error .outsideDomain
    else
      match floatOfInt? n with
      | some x => .ok x.log
      | none =>
        let shift := Nat.log2 n.toNat - 60
        .ok ((Float.ofScientific (n.toNat / Nat.pow 2 shift) false 0).log +
          (Float.ofScientific shift false 0) * (2.0 : Float).log)
  | none => do
    let x ← value.toFloat
    if x.isNaN then .ok x
    else if x ≤ 0.0 then .error .outsideDomain
    else .ok x.log

def roundPlaces (x : Float) (places : Int) : Float :=
  match ExactFloat.ofFloat? x with
  | none => x
  | some exact =>
    if 323 < places then x
    else if places < -308 then withSignOf 0.0 x
    else
      let (numerator, denominator) := exact.fraction
      let rounded := roundQuotient (numerator * Nat.pow 10 places.toNat)
        (denominator * Nat.pow 10 (-places).toNat)
      withSignOf (floatOfDecimal rounded (-places)) x

/-- Round an integer to a power of ten, halves to even. -/
def roundTens (n : Int) (places : Nat) : Int :=
  let unit := Nat.pow 10 places
  let magnitude := roundQuotient n.natAbs unit * unit
  if n < 0 then -(magnitude : Int) else magnitude

def roundNumber (value : Value) (places : Option Int) : Except Problem Value :=
  match value, value.integer?, places with
  | _, some n, none => .ok (.int n)
  | _, some n, some places => .ok (.int (if 0 ≤ places then n else roundTens n (-places).toNat))
  | .float x, none, none => toInteger ExactFloat.round x
  | .float x, none, some places => .ok (.float (roundPlaces x places))
  | value, none, _ =>
    .error (.wrongType ("type " ++ value.typeName ++ " doesn't define __round__ method"))

def roundingPlaces (value places : Value) : Except Problem (Option Int) :=
  match places with
  | .nothing => .ok none
  | places => if value.isNumber then (asInteger places).map some else .ok none

def plainFunctions : List (String × (Float → Float)) :=
  [("atan", atan), ("tanh", tanh), ("asinh", asinh), ("fabs", abs),
   ("cbrt", cbrt), ("degrees", fun x => x * (180.0 / pi)),
   ("radians", fun x => x * (pi / 180.0))]

/-- Functions of one float that finite arguments may overflow. -/
def growingFunctions : List (String × (Float → Float)) :=
  [("exp", exp), ("sinh", sinh), ("cosh", cosh), ("exp2", exp2)]

/-- Functions of one float that infinite arguments leave undefined. -/
def periodicFunctions : List (String × (Float → Float)) :=
  [("sin", sin), ("cos", cos), ("tan", tan)]

def wrongCount (name : String) (expected : String) (count : Nat) : Except Problem Value :=
  .error (.wrongType (name ++ " expected " ++ expected ++ ", got " ++ showInt count))

def applyOne (name : String) (argument : Value) : Except Problem Value := do
  match plainFunctions.lookup name, growingFunctions.lookup name, periodicFunctions.lookup name with
  | some f, _, _ => return .float (f (← argument.toFloat))
  | _, some f, _ => let x ← argument.toFloat; inRange x (f x)
  | _, _, some f => let x ← argument.toFloat; onDomain (!x.isInf) fun _ => f x
  | none, none, none =>
    match name with
    | "sqrt" => let x ← argument.toFloat; onDomain (!(x < 0.0)) fun _ => x.sqrt
    | "asin" => let x ← argument.toFloat; onDomain (x.isNaN || x.abs ≤ 1.0) fun _ => x.asin
    | "acos" => let x ← argument.toFloat; onDomain (x.isNaN || x.abs ≤ 1.0) fun _ => x.acos
    | "log" => return .float (← logarithm argument)
    | "log2" => let x ← argument.toFloat; onDomain (!(x ≤ 0.0)) fun _ => x.log2
    | "log10" => let x ← argument.toFloat; onDomain (!(x ≤ 0.0)) fun _ => x.log10
    | "floor" => roundBy ExactFloat.floor argument
    | "ceil" => roundBy ExactFloat.ceil argument
    | "trunc" =>
      if argument.isNumber then roundBy ExactFloat.truncate argument
      else throw (.wrongType ("type " ++ argument.typeName ++ " doesn't define __trunc__ method"))
    | "round" => roundNumber argument none
    | "isnan" => return .bool (← argument.toFloat).isNaN
    | "isinf" => return .bool (← argument.toFloat).isInf
    | "isfinite" => let x ← argument.toFloat; return .bool (!x.isNaN && !x.isInf)
    | "factorial" =>
      let n ← asInteger argument
      if n < 0 then throw (.wrongValue "factorial() not defined for negative values")
      return .int (factorial n.toNat)
    | "isqrt" =>
      let n ← asInteger argument
      if n < 0 then throw (.wrongValue "isqrt() argument must be nonnegative")
      return .int (integerRoot n.toNat)
    | "abs" =>
      match argument.integer?, argument with
      | some n, _ => return .int n.natAbs
      | none, .float x => return .float x.abs
      | none, argument => throw (.wrongType ("bad operand type for abs(): '" ++
          argument.typeName ++ "'"))
    | "int" => convertToInt argument
    | "float" => return .float (← convertToFloat argument)
    | "bool" => return .bool argument.isTrue
    | "str" =>
      match argument with
      | .text text => return .text text
      | argument => return .text argument.written
    | "len" =>
      match argument with
      | .text text => return .int text.length
      | .tuple items => return .int items.length
      | argument => throw (.wrongType ("object of type '" ++ argument.typeName ++
          "' has no len()"))
    | "gcd" | "lcm" => return .int (← asInteger argument).natAbs
    | _ => wrongCount name "2 arguments" 1

def applyTwo (name : String) (left right : Value) : Except Problem Value := do
  match name with
  | "pow" => powerFunction (← left.toFloat) (← right.toFloat)
  | "atan2" => return .float ((← left.toFloat).atan2 (← right.toFloat))
  | "copysign" =>
    let x ← left.toFloat
    let y ← right.toFloat
    return .float (if y.toBits >>> 63 == 1 then -x.abs else x.abs)
  | "fmod" =>
    let x ← left.toFloat
    let y ← right.toFloat
    if x.isNaN || y.isNaN then return .float (0.0 / 0.0)
    onDomain (!x.isInf && !(y == 0.0)) fun _ => floatModulo x y
  | "log" =>
    let x ← logarithm left
    let y ← logarithm right
    if y == 0.0 then throw .floatDivisionByZero
    return .float (x / y)
  | "gcd" => return .int (Nat.gcd (← asInteger left).natAbs (← asInteger right).natAbs)
  | "lcm" => return .int (Nat.lcm (← asInteger left).natAbs (← asInteger right).natAbs)
  | "comb" | "perm" =>
    let n ← asInteger left
    let k ← asInteger right
    if n < 0 then throw (.wrongValue "n must be a non-negative integer")
    if k < 0 then throw (.wrongValue "k must be a non-negative integer")
    let ways := choose n.toNat k.toNat
    return .int (if name == "comb" then ways else ways * factorial k.toNat)
  | "round" => roundNumber left (← roundingPlaces left right)
  | _ => wrongCount name "1 argument" 2

def applyFunction (name : String) (arguments : List Value) : Except Problem Value :=
  match name, arguments with
  | "max", [.tuple (first :: rest)] => extreme .gt first rest
  | "min", [.tuple (first :: rest)] => extreme .lt first rest
  | "max", first :: second :: rest => extreme .gt first (second :: rest)
  | "min", first :: second :: rest => extreme .lt first (second :: rest)
  | "max", [argument] | "min", [argument] =>
    match argument with
    | .tuple [] => .error (.wrongValue (name ++ "() arg is an empty sequence"))
    | argument =>
      .error (.wrongType ("'" ++ argument.typeName ++ "' object is not iterable"))
  | "hypot", arguments => do return .float (hypotenuse (← arguments.mapM Value.toFloat))
  | "int", [] => .ok (.int 0)
  | "float", [] => .ok (.float 0.0)
  | name, [argument] => applyOne name argument
  | name, [left, right] => applyTwo name left right
  | "gcd", arguments => do
    let numbers ← arguments.mapM asInteger
    let divisor : Nat := numbers.foldl (fun divisor n => Nat.gcd divisor n.natAbs) 0
    .ok (.int divisor)
  | name, arguments => wrongCount name "1 argument" arguments.length

def constants : List (String × Value) :=
  [("pi", .float pi), ("e", .float 2.718281828459045), ("tau", .float 6.283185307179586),
   ("inf", .float (1.0 / 0.0)), ("nan", .float (0.0 / 0.0))]

def functionNames : List String :=
  ["acos", "acosh", "asin", "asinh", "atan", "atan2", "atanh", "cbrt", "ceil", "comb", "copysign",
   "cos", "cosh", "degrees", "dist", "erf", "erfc", "exp", "exp2", "expm1", "fabs", "factorial",
   "floor", "fmod", "frexp", "fsum", "gamma", "gcd", "hypot", "isclose", "isfinite", "isinf",
   "isnan", "isqrt", "lcm", "ldexp", "lgamma", "log", "log10", "log1p", "log2", "modf",
   "nextafter", "perm", "pow", "prod", "radians", "remainder", "sin", "sinh", "sqrt", "tan", "tanh",
   "trunc", "ulp", "abs", "max", "min", "round", "len", "print", "sum", "chr", "ord", "repr"]

def typeNames : List String := ["int", "float", "bool", "str"]

def meaning? (name : String) : Option Value :=
  match constants.lookup name with
  | some value => some value
  | none =>
    if functionNames.contains name then some (.function name false)
    else if typeNames.contains name then some (.function name true)
    else none

mutual

/-- The value of a calculation where `bound` gives the names of the surroundings. -/
def Expression.eval (bound : List (String × Value)) : Expression → Except Problem Value
  | .value constant => .ok constant
  | .name key =>
    match (bound.lookup key).orElse fun _ => meaning? key with
    | some found => .ok found
    | none => .error (.unknownName key)
  | .unary op operand => do op.apply (← operand.eval bound)
  | .binary op left right => do
    let left ← left.eval bound
    let right ← right.eval bound
    op.apply left right
  | .compare first rest => do
    let first ← first.eval bound
    Expression.evalComparisons bound first rest
  | .both left right => do
    let left ← left.eval bound
    if left.isTrue then right.eval bound else .ok left
  | .either left right => do
    let left ← left.eval bound
    if left.isTrue then .ok left else right.eval bound
  | .negation operand => do return .bool (!(← operand.eval bound).isTrue)
  | .conditional condition positive negative => do
    if (← condition.eval bound).isTrue then positive.eval bound else negative.eval bound
  | .tuple items => do return .tuple (← Expression.evalAll bound items)
  | .call function arguments => do
    let function ← function.eval bound
    let arguments ← Expression.evalAll bound arguments
    match function with
    | .function key _ => applyFunction key arguments
    | other => .error (.wrongType ("'" ++ other.typeName ++ "' object is not callable"))

def Expression.evalAll (bound : List (String × Value)) :
    List Expression → Except Problem (List Value)
  | [] => .ok []
  | item :: items => do
    let first ← item.eval bound
    let rest ← Expression.evalAll bound items
    .ok (first :: rest)

/-- A chain of comparisons stops at the first one that fails. -/
def Expression.evalComparisons (bound : List (String × Value)) (left : Value) :
    List (Comparison × Expression) → Except Problem Value
  | [] => .ok (.bool true)
  | (op, operand) :: rest => do
    let right ← operand.eval bound
    if ← op.apply left right then
      match rest with
      | [] => .ok (.bool true)
      | rest => Expression.evalComparisons bound right rest
    else .ok (.bool false)

end

def evaluate (bound : List (String × Value)) (source : String) : Except Problem Value := do
  (← Expression.read source).eval bound

def Value.result (value : Value) : Result :=
  match convertToFloat value with
  | .ok x => .number x
  | .error _ => .other value.written

/-- Arithmetic with the usual functions.  All its calculations end. -/
instance arithmetic : Evaluator where
  evaluate? source := some ((evaluate [] source).map Value.result)

end NodeFormula.Calculation
