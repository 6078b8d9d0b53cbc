import NodeFormula.Catalog.Basic

/-!
# Sockets of the function nodes

Every node with its input and output sockets, by name and data type.
-/

namespace NodeFormula.Catalog

def functionShapes : List (String × NodeShape) := stemmed "FunctionNode"
  [("AlignEulerToVector", [vec3 "rotation", float "factor", vec3 "vector"], [vec3 "rotation"]),
   ("BooleanMath", [bool "boolean", bool "boolean"], [bool "boolean"]),
   ("CombineColor", [float "red", float "green", float "blue", float "alpha"], [color]),
   ("Compare", [float "a", float "b", int "a", int "b", vec3 "a", vec3 "b", rgba "a", rgba "b",
      string "a", string "b", float "c", float "angle", float "epsilon"], [bool "result"]),
   ("FloatToInt", [float "float"], [int "integer"]),
   ("InputBool", [], [bool "boolean"]),
   ("InputColor", [], [color]),
   ("InputInt", [], [int "integer"]),
   ("InputSpecialCharacters", [], [string "line_break", string "tab"]),
   ("InputString", [], [string "string"]),
   ("InputVector", [], [vec3 "vector"]),
   ("RandomValue", [vec3 "min", vec3 "max", float "min", float "max", int "min", int "max",
      float "probability", int "id", int "seed"], [vec3 "value", float "value", int "value",
      bool "value"]),
   ("ReplaceString", [string "string", string "find", string "replace"], [string "string"]),
   ("RotateEuler", [vec3 "rotation", vec3 "rotate_by", vec3 "axis", float "angle"],
      [vec3 "rotation"]),
   ("SeparateColor", [color], [float "red", float "green", float "blue", float "alpha"]),
   ("SliceString", [string "string", int "position", int "length"], [string "string"]),
   ("StringLength", [string "string"], [int "length"]),
   ("ValueToString", [float "value", int "decimals"], [string "string"])]

end NodeFormula.Catalog
