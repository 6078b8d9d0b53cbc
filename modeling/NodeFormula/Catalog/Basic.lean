import NodeFormula.DataType
import NodeFormula.Value

/-!
# Nodes of the catalog

A node has fixed sockets; a recipe says which node to make, which of its
sockets a call uses and which properties to set first.
-/

namespace NodeFormula

structure NodeShape where
  inputs : List (String × DataType)
  outputs : List (String × DataType)

structure NodeRecipe where
  key : String
  inputs : List Nat
  outputs : List Nat
  /-- The properties that are set, in this order. -/
  props : List (String × Value)

/-- A candidate for a function name: an alias, or a recipe itself. -/
inductive Candidate
  | alias (name : String)
  | direct (recipe : NodeRecipe)

namespace Catalog

def float (name : String) : String × DataType := (name, .float)
def int (name : String) : String × DataType := (name, .int)
def bool (name : String) : String × DataType := (name, .bool)
def vec3 (name : String) : String × DataType := (name, .vec3)
def rgba (name : String) : String × DataType := (name, .rgba)
def string (name : String) : String × DataType := (name, .string)
def geometry (name : String) : String × DataType := (name, .geometry)
def shader (name : String) : String × DataType := (name, .shader)

def color : String × DataType := rgba "color"
def selection : String × DataType := bool "selection"
def curve : String × DataType := geometry "curve"
def mesh : String × DataType := geometry "mesh"
def geometries : String × DataType := geometry "geometry"

def values : List (String × DataType) :=
  [float "value", int "value", vec3 "value", rgba "value", bool "value"]

def attributes : List (String × DataType) :=
  [vec3 "attribute", float "attribute", rgba "attribute", bool "attribute", int "attribute"]

/-- Nodes whose names begin alike, with their inputs and outputs. -/
def stemmed (stem : String)
    (table : List (String × List (String × DataType) × List (String × DataType))) :
    List (String × NodeShape) :=
  table.map fun (name, inputs, outputs) => (stem ++ name, ⟨inputs, outputs⟩)

def recipe (key : String) (inputs outputs : List Nat) (props : List (String × String)) :
    NodeRecipe :=
  ⟨key, inputs, outputs, props.map fun prop => (prop.1, .text prop.2)⟩

def whole (key : String) (inputs outputs : Nat) : NodeRecipe :=
  recipe key (List.range inputs) (List.range outputs) []

/-- A value of a property: its part of the name, and the sockets that it brings into use. -/
structure Setting where
  label : String
  value : String
  inputs : List Nat
  outputs : List Nat

structure Choice where
  property : String
  settings : List Setting

/-- A setting whose value is its label in capitals if none is given. -/
def setting (label value : String) (inputs outputs : List Nat) : Setting :=
  ⟨label, if value = "" then label.toUpper else value, inputs, outputs⟩

def routing (property : String) (values : List (String × String × List Nat × List Nat)) : Choice :=
  ⟨property, values.map fun (label, value, inputs, outputs) => setting label value inputs outputs⟩

def adding (property : String) (values : List (String × String × List Nat)) : Choice :=
  routing property (values.map fun (label, value, inputs) => (label, value, inputs, []))

def plain (property : String) (values : List (String × String)) : Choice :=
  adding property (values.map fun (label, value) => (label, value, []))

def named (property : String) (labels : List String) : Choice := plain property (labels.map (·, ""))

def insertSocket (socket : Nat) : List Nat → List Nat
  | [] => [socket]
  | first :: rest => if socket < first then socket :: first :: rest
      else first :: insertSocket socket rest

/-- A recipe for each choice of values for some properties.  The name has a part for each value. -/
def family (name key : String) (inputs outputs : List Nat) : List Choice →
    List (String × NodeRecipe)
  | [] => [(name, recipe key inputs outputs [])]
  | choice :: choices =>
    choice.settings.flatMap fun setting =>
      (family (name ++ "_" ++ setting.label) key (setting.inputs.foldr insertSocket inputs)
        (setting.outputs.foldr insertSocket outputs) choices).map fun (name, recipe) =>
          (name, { recipe with props := (choice.property, .text setting.value) :: recipe.props })

/-- A node as it is usually made, and with the choices of some variants. -/
def varied (name key : String) (usual : String → NodeRecipe)
    (variants : List (List Nat × List Nat × List Choice)) : List (String × NodeRecipe) :=
  (name, usual key) ::
    variants.flatMap fun (inputs, outputs, choices) => family name key inputs outputs choices

/-- A node that uses all its sockets, whatever is chosen. -/
def wholly (name key : String) (inputs outputs : Nat) (choices : List Choice) :
    List (String × NodeRecipe) :=
  varied name key (whole · inputs outputs) [(List.range inputs, List.range outputs, choices)]

/-- Aliases of shader nodes, whose kinds begin alike. -/
def ofShader (tables : List (List (String × NodeRecipe))) : List (String × NodeRecipe) :=
  tables.flatten.map fun (name, recipe) => (name, { recipe with key := "ShaderNode" ++ recipe.key })

def colorModes : Choice := named "mode" ["hsl", "hsv", "rgb"]

def extensions : Choice := named "extension" ["clip", "extend", "mirror", "repeat"]

def blendTypes : Choice :=
  plain "blend_type" [("add", ""), ("color", ""), ("color_burn", "BURN"), ("color_dodge", "DODGE"),
    ("darken", ""), ("difference", ""), ("divide", ""), ("exclusion", ""), ("hue", ""),
    ("lighten", ""), ("linear_light", ""), ("mix", ""), ("multiply", ""), ("overlay", ""),
    ("saturation", ""), ("screen", ""), ("soft_light", ""), ("subtract", ""), ("value", "")]

end Catalog

namespace NodeRecipe

def writtenIndices (indices : List Nat) : String :=
  Text.bracketed (indices.map fun (index : Nat) => Number.showInt index)

def written (recipe : NodeRecipe) : String :=
  let props := recipe.props.map fun prop =>
    "(" ++ Text.quoted prop.1 ++ ", " ++ prop.2.written ++ ")"
  "NodeInstance(key=" ++ Text.quoted recipe.key ++ ", inputs=" ++ writtenIndices recipe.inputs ++
    ", outputs=" ++ writtenIndices recipe.outputs ++ ", props=" ++ Text.bracketed props ++ ")"

end NodeRecipe

end NodeFormula
