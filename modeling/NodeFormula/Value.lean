import NodeFormula.Number.Notation
import NodeFormula.Text.Quoted

/-!
# Values

The constants of formulas and the values that are set on sockets and node
properties.
-/

namespace NodeFormula

/-- A component of a vector or a colour. -/
inductive Scalar
  | int (value : Int)
  | float (value : Number.Double)
deriving DecidableEq

namespace Scalar

def ofFloat (x : Float) : Scalar := .float (.ofFloat x)

def written : Scalar → String
  | .int value => Number.showInt value
  | .float value => value.written

end Scalar

inductive Value
  | bool (value : Bool)
  | int (value : Int)
  | float (value : Number.Double)
  | vector (components : List Scalar)
  | text (value : String)
  /-- The value of types that have no constants, such as geometry. -/
  | blank
deriving DecidableEq

def Scalar.toValue : Scalar → Value
  | .int value => .int value
  | .float value => .float value

namespace Value

def writtenBool (value : Bool) : String := if value then "True" else "False"

def written : Value → String
  | .bool value => writtenBool value
  | .int value => Number.showInt value
  | .float value => value.written
  | .vector components => Text.bracketed (components.map Scalar.written)
  | .text value => Text.quoted value
  | .blank => "None"

/-- Whether a value is something else than zero, empty or blank. -/
def isNonzero : Value → Bool
  | .bool value => value
  | .int value => value ≠ 0
  | .float value => !value.isZero
  | .vector components => !components.isEmpty
  | .text value => value ≠ ""
  | .blank => false

end Value

def writtenOption : Option Value → String
  | none => "None"
  | some value => value.written

end NodeFormula
