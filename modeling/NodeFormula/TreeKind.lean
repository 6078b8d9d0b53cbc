import NodeFormula.Catalog.FunctionShapes
import NodeFormula.Catalog.GeometryAliases
import NodeFormula.Catalog.GeometryShapes
import NodeFormula.Catalog.Overloads
import NodeFormula.Catalog.ShaderAliases
import NodeFormula.Catalog.ShaderShapes
import NodeFormula.Catalog.SharedAliases
import NodeFormula.Conversion

/-!
# Kinds of node trees

Formulas are compiled for geometry trees or for shader trees.  The kind of tree
decides which functions exist and which constants can be used.
-/

namespace NodeFormula

/-- The kinds of node trees that formulas are compiled for. -/
inductive TreeKind
  | geometry | shader
deriving DecidableEq, Repr

def Catalog.shapes : List (String × NodeShape) :=
  functionShapes ++ geometryShapes ++ shaderShapes

def Catalog.shape? (key : String) : Option NodeShape := shapes.lookup key

namespace TreeKind

def label : TreeKind → String
  | .geometry => "GeometryNodeTree"
  | .shader => "ShaderNodeTree"

def ofLabel (name : String) : Except Fault TreeKind :=
  if name = TreeKind.geometry.label then .ok .geometry
  else if name = TreeKind.shader.label then .ok .shader
  else .error (.broken "Unreachable, compiler should not be used for other trees.")

def overloads : TreeKind → List (String × List Candidate)
  | .geometry => Catalog.geometryOverloads
  | .shader => Catalog.shaderOverloads

def ownAliases : TreeKind → List (String × NodeRecipe)
  | .geometry => Catalog.geometryAliases
  | .shader => Catalog.shaderAliases

def alias? (kind : TreeKind) (name : String) : Option NodeRecipe :=
  (kind.ownAliases.lookup name).orElse fun _ => Catalog.sharedAliases.lookup name

/-- A constant as this kind of tree holds it, or why it cannot. -/
def coerce (kind : TreeKind) (value : Value) (type : DataType) :
    Except Fault (Except String (Value × DataType)) :=
  match kind with
  | .geometry =>
    if DataType.shader.code ≤ type.code || type = .geometry then
      .ok (.error ("Can't coerce type " ++ type.label ++ " to a Geometry Nodes value"))
    else .ok (.ok (value, type))
  | .shader =>
    if DataType.vec3.code < type.code then
      .ok (.error ("Can't coerce type " ++ type.label ++ " to a Shader Nodes value"))
    else if type = .int || type = .bool then do
      return .ok (← convert value type .float, .float)
    else .ok (.ok (value, type))

end TreeKind

end NodeFormula
