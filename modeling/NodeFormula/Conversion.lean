import NodeFormula.Fault
import NodeFormula.Value

/-!
# Converting constants

A constant is converted when its argument position has another type.  Types up to vectors convert
into one another.  A positive number converts to false and all others to true, while vectors and
colours convert by their mean being nonzero.
-/

namespace NodeFormula

open NodeFormula.Number

def floatOfInt (n : Int) : Except Fault Double :=
  match Double.ofInt? n with
  | some x => .ok x
  | none => .error .integerTooLarge

def intOfFloat (x : Double) : Except Fault Int :=
  if x.isNaN then .error .notANumberToInteger
  else if x.isInf then .error .infinityToInteger
  else .ok x.exact.truncate

def Scalar.toFloat : Scalar → Except Fault Float
  | .int value => do return (← floatOfInt value).toFloat
  | .float value => .ok value.toFloat

/-- The sum of components; integers add exactly. -/
def Scalar.add : Scalar → Scalar → Except Fault Scalar
  | .int a, .int b => .ok (.int (a + b))
  | a, b => do return .ofFloat ((← a.toFloat) + (← b.toFloat))

def luminance (components : List Scalar) : Except Fault Float :=
  match components with
  | r :: g :: b :: _ => do
    return 0.2126 * (← r.toFloat) + 0.7152 * (← g.toFloat) + 0.0722 * (← b.toFloat)
  | _ => .error .listIndex

def meanOfThree (components : List Scalar) : Except Fault Float :=
  match components with
  | x :: y :: z :: _ => do
    let sum ← (← x.add y).add z
    return (← sum.toFloat) / 3.0
  | _ => .error .listIndex

def Value.uniform (count : Nat) (x : Double) : Value :=
  .vector (List.replicate count (.float x))

/-- A number that stands for a colour or vector, converted further. -/
def convertMean (mean : Double) (target : DataType) (otherwise : Value) : Except Fault Value :=
  match target with
  | .bool => .ok (.bool (!mean.isZero))
  | .int => do return .int (← intOfFloat mean)
  | .float => .ok (.float mean)
  | _ => .ok otherwise

def convertDefault (value : Value) : DataType → Value
  | .bool => .bool true
  | .int => .int 0
  | .float => .float .zero
  | .vec3 => .uniform 3 .zero
  | .rgba => .uniform 4 .zero
  | _ => value

def convertBool (value : Bool) : DataType → Value
  | .int => .int (if value then 1 else 0)
  | .float => .float (if value then .one else .zero)
  | .rgba => .uniform 4 (if value then .one else .zero)
  | .vec3 => .uniform 3 (if value then .one else .zero)
  | _ => .bool value

/-- Convert an integer; `value` is what it was written as. -/
def convertInt (value : Value) (n : Int) : DataType → Except Fault Value
  | .bool => .ok (.bool (n ≤ 0))
  | .float => do return .float (← floatOfInt n)
  | .rgba => do return .uniform 4 (← floatOfInt n)
  | .vec3 => do return .uniform 3 (← floatOfInt n)
  | _ => .ok value

def convertFloat (x : Double) : DataType → Except Fault Value
  | .bool => .ok (.bool x.isAtMostZero)
  | .int => do return .int (← intOfFloat x)
  | .rgba => .ok (.uniform 4 x)
  | .vec3 => .ok (.uniform 3 x)
  | _ => .ok (.float x)

def convert (value : Value) (source target : DataType) : Except Fault Value :=
  if !source.converts target then .error (.cannotConvert source target)
  else
    match source with
    | .unknown | .default => .ok (convertDefault value target)
    | .bool =>
      match value with
      | .bool b => .ok (convertBool b target)
      | _ => .error .wrongRepresentation
    | .int =>
      match value with
      | .bool b => convertInt value (if b then 1 else 0) target
      | .int n => convertInt value n target
      | _ => .error .wrongRepresentation
    | .float =>
      match value with
      | .float x => convertFloat x target
      | _ => .error .wrongRepresentation
    | .rgba =>
      match value with
      | .vector components => do
        let mean ← luminance components
        let shortened := if target = .vec3 then .vector (components.take 3) else value
        convertMean (.ofFloat mean) target shortened
      | _ => .error .wrongRepresentation
    | .vec3 =>
      match value with
      | .vector components => do
        let mean ← meanOfThree components
        let extended := if target = .rgba then .vector (components ++ [.int 1]) else value
        convertMean (.ofFloat mean) target extended
      | _ => .error .wrongRepresentation
    | _ => .ok value

end NodeFormula
