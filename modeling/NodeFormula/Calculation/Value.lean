import NodeFormula.Number.Notation
import NodeFormula.Number.Reading
import NodeFormula.Text.Quoted

/-!
# Values of calculations

A calculation is a piece of arithmetic that is carried out while a formula is
read.  Its values are unbounded integers, floats, truth values, texts, tuples
and functions; its problems say why no value came out.

Reading takes any `Evaluator`, so what is known about formulas does not rest on
what calculations can express, nor on that they end.
-/

namespace NodeFormula

namespace Calculation

inductive Value
  | nothing
  | bool (value : Bool)
  | int (value : Int)
  | float (value : Float)
  | complex (real imaginary : Float)
  | text (value : String)
  | tuple (items : List Value)
  /-- A function that was named and not called; `isType` tells constructors apart. -/
  | function (name : String) (isType : Bool)
  /-- A value of the surroundings that calculations cannot look into. -/
  | foreign (typeName shown : String)

/-- What comes of a calculation that does not fail: a number, or something else as it is written. -/
inductive Result
  | number (value : Float)
  | other (shown : String)

inductive Problem
  | invalid (line : Nat)
  | neverClosed (bracket : Char) (line : Nat)
  | unmatched (bracket : Char) (line : Nat)
  | mismatched (closing opening : Char) (line : Nat)
  | unterminatedText (line : Nat)
  | invalidLiteral (base : String) (line : Nat)
  | unexpectedIndent
  | unknownName (name : String)
  | divisionByZero
  | floatDivisionByZero
  | floatFloorDivisionByZero
  | floatRemainderByZero
  | remainderByZero
  | floorDivisionByZero
  | zeroToNegativePower
  | outsideDomain
  | outsideRange
  | powerTooLarge
  | integerTooLarge
  | quotientTooLarge
  | notANumberToInteger
  | infinityToInteger
  /-- A text or tuple is to be repeated more often than anything can be. -/
  | countTooLarge
  | wrongType (message : String)
  | wrongValue (message : String)
  /-- Anything else that an evaluator may raise. -/
  | raised (name message : String)
deriving DecidableEq, Repr

inductive ProblemKind
  | invalid
  | indentation
  | unknownName
  | wrongType
  | zeroDivision
  | wrongValue
  | overflow
  | raised (name : String)
deriving DecidableEq, Repr

namespace Problem

def kind : Problem → ProblemKind
  | .invalid _ | .neverClosed .. | .unmatched .. | .mismatched .. | .unterminatedText _
  | .invalidLiteral .. => .invalid
  | .unexpectedIndent => .indentation
  | .unknownName _ => .unknownName
  | .divisionByZero | .floatDivisionByZero | .floatFloorDivisionByZero | .floatRemainderByZero
  | .remainderByZero | .floorDivisionByZero | .zeroToNegativePower => .zeroDivision
  | .outsideDomain | .notANumberToInteger | .wrongValue _ => .wrongValue
  | .outsideRange | .powerTooLarge | .integerTooLarge | .quotientTooLarge
  | .infinityToInteger | .countTooLarge => .overflow
  | .wrongType _ => .wrongType
  | .raised name _ => .raised name

/-- Whether reading goes on after the problem, with a report. -/
def isReported (problem : Problem) : Bool :=
  match problem.kind with
  | .invalid | .indentation | .unknownName | .wrongType | .zeroDivision => true
  | .wrongValue | .overflow | .raised _ => false

def atLine (message : String) (line : Nat) : String :=
  message ++ " (<string>, line " ++ Number.showInt line ++ ")"

def message : Problem → String
  | .invalid line => atLine "invalid syntax" line
  | .neverClosed bracket line => atLine ("'" ++ bracket.toString ++ "' was never closed") line
  | .unmatched bracket line => atLine ("unmatched '" ++ bracket.toString ++ "'") line
  | .mismatched closing opening line =>
    atLine ("closing parenthesis '" ++ closing.toString ++
      "' does not match opening parenthesis '" ++ opening.toString ++ "'") line
  | .unterminatedText line =>
    atLine ("unterminated string literal (detected at line " ++ Number.showInt line ++ ")") line
  | .invalidLiteral base line => atLine ("invalid " ++ base ++ " literal") line
  | .unexpectedIndent => atLine "unexpected indent" 1
  | .unknownName name => "name '" ++ name ++ "' is not defined"
  | .divisionByZero => "division by zero"
  | .floatDivisionByZero => "float division by zero"
  | .floatFloorDivisionByZero => "float floor division by zero"
  | .floatRemainderByZero => "float modulo"
  | .remainderByZero => "integer modulo by zero"
  | .floorDivisionByZero => "integer division or modulo by zero"
  | .zeroToNegativePower => "0.0 cannot be raised to a negative power"
  | .outsideDomain => "math domain error"
  | .outsideRange => "math range error"
  | .powerTooLarge => "(34, 'Numerical result out of range')"
  | .integerTooLarge => "int too large to convert to float"
  | .quotientTooLarge => "integer division result too large for a float"
  | .notANumberToInteger => "cannot convert float NaN to integer"
  | .infinityToInteger => "cannot convert float infinity to integer"
  | .countTooLarge => "cannot fit 'int' into an index-sized integer"
  | .wrongType message | .wrongValue message | .raised _ message => message

end Problem

namespace Value

def typeName : Value → String
  | .nothing => "NoneType"
  | .bool _ => "bool"
  | .int _ => "int"
  | .float _ => "float"
  | .complex .. => "complex"
  | .text _ => "str"
  | .tuple _ => "tuple"
  | .function _ isType => if isType then "type" else "builtin_function_or_method"
  | .foreign typeName _ => typeName

/-- A part of a complex number, without a fraction if there is none. -/
def writtenPart (part : Float) : String :=
  let shown := Number.showFloat part
  if shown.endsWith ".0" then (shown.dropEnd 2).toString else shown

/-- The written form of a complex number; a real part of zero is left out. -/
def writtenComplex (real imaginary : Float) : String :=
  if real.toBits == 0 then writtenPart imaginary ++ "j"
  else
    let shown := writtenPart imaginary
    "(" ++ writtenPart real ++ (if shown.startsWith "-" then "" else "+") ++ shown ++ "j)"

mutual

def written : Value → String
  | .nothing => "None"
  | .bool value => if value then "True" else "False"
  | .int value => Number.showInt value
  | .float value => Number.showFloat value
  | .complex real imaginary => writtenComplex real imaginary
  | .text value => Text.quoted value
  | .tuple [] => "()"
  | .tuple [item] => "(" ++ item.written ++ ",)"
  | .tuple items => "(" ++ ", ".intercalate (writtenAll items) ++ ")"
  | .function name isType =>
    if isType then "<class '" ++ name ++ "'>" else "<built-in function " ++ name ++ ">"
  | .foreign _ shown => shown

def writtenAll : List Value → List String
  | [] => []
  | item :: items => item.written :: writtenAll items

end

def isTrue : Value → Bool
  | .nothing => false
  | .bool value => value
  | .int value => value ≠ 0
  | .float value => !(value == 0.0)
  | .complex real imaginary => !(real == 0.0 && imaginary == 0.0)
  | .text value => value ≠ ""
  | .tuple items => !items.isEmpty
  | .function .. | .foreign .. => true

def integer? : Value → Option Int
  | .bool value => some (if value then 1 else 0)
  | .int value => some value
  | _ => none

def toFloat : Value → Except Problem Float
  | .bool value => .ok (if value then 1.0 else 0.0)
  | .int value =>
    match Number.floatOfInt? value with
    | some x => .ok x
    | none => .error .integerTooLarge
  | .float value => .ok value
  | value => .error (.wrongType ("must be real number, not " ++ value.typeName))

def isNumber : Value → Bool
  | .bool _ | .int _ | .float _ => true
  | _ => false

end Value

end Calculation

/-- How calculations are carried out.  One that never ends has no result. -/
class Evaluator where
  evaluate? : String → Option (Except Calculation.Problem Calculation.Result)

end NodeFormula
