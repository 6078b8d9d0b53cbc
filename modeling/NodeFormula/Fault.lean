import NodeFormula.Calculation.Value
import NodeFormula.DataType

/-!
# Faults

A fault is a failure that no report to the user describes: reading, checking,
compiling or building stops where it stands.  Each cause has a constructor and
the wording is in `Fault.message`.
-/

namespace NodeFormula

inductive Fault
  | calculation (problem : Calculation.Problem)
  /-- A calculation never ends, and neither does what waits for it. -/
  | endless
  /-- Reading took more steps than the text has room for; no text does that. -/
  | exhausted
  /-- An operator stands between operands although it only takes one. -/
  | noInfixRule
  /-- Arguments follow an operand that could not be read. -/
  | calleeMissing
  | cannotConvert (source target : DataType)
  | wrongRepresentation
  | integerTooLarge
  | notANumberToInteger
  | infinityToInteger
  | listIndex
  | textIndex
  | assignmentIndex
  | popFromEmpty
  | divisionByZero
  | unknownKey (key : String)
  | notSupported (message : String)
  /-- A condition that the program relies on does not hold. -/
  | broken (message : String)
  /-- An operand does not support what is asked of it. -/
  | unsuitable (message : String)
  | unreadableCache (isEmpty : Bool)
  /-- A component of the surroundings is missing. -/
  | noAttribute (typeName field : String)
deriving DecidableEq, Repr

namespace Fault

def message : Fault → String
  | .calculation problem => problem.message
  | .exhausted => "maximum recursion depth exceeded"
  | .noInfixRule => "'NoneType' object is not callable"
  | .calleeMissing => "Error in the parser"
  | .cannotConvert source target =>
    "Invalid type, can't convert from " ++ toString source.code ++ " to " ++
      toString target.code ++ " "
  | .wrongRepresentation | .endless => ""
  | .integerTooLarge => "int too large to convert to float"
  | .notANumberToInteger => "cannot convert float NaN to integer"
  | .infinityToInteger => "cannot convert float infinity to integer"
  | .listIndex => "list index out of range"
  | .textIndex => "string index out of range"
  | .assignmentIndex => "list assignment index out of range"
  | .popFromEmpty => "pop from empty list"
  | .divisionByZero => "integer division or modulo by zero"
  | .unknownKey key => Text.quoted key
  | .notSupported message | .broken message | .unsuitable message => message
  | .unreadableCache isEmpty => if isEmpty then "Ran out of input" else "pickle data was truncated"
  | .noAttribute typeName field =>
    "'" ++ typeName ++ "' object has no attribute '" ++ field ++ "'"

end Fault

end NodeFormula
