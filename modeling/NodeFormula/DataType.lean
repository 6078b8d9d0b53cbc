/-!
# Data types

The types of socket values.  `unknown` is the type of a name that was never
assigned and `default` the type of the placeholder `_`; both fit anywhere.
-/

namespace NodeFormula

inductive DataType
  | unknown | default | bool | int | float | rgba | vec3 | geometry | string | shader | object
  | image | collection | texture | material
deriving DecidableEq, Repr, Inhabited

namespace DataType

def all : List DataType :=
  [.unknown, .default, .bool, .int, .float, .rgba, .vec3, .geometry, .string, .shader, .object,
   .image, .collection, .texture, .material]

def code : DataType → Nat
  | .unknown => 0
  | .default => 1
  | .bool => 2
  | .int => 3
  | .float => 4
  | .rgba => 5
  | .vec3 => 6
  | .geometry => 7
  | .string => 8
  | .shader => 9
  | .object => 10
  | .image => 11
  | .collection => 12
  | .texture => 13
  | .material => 14

def label : DataType → String
  | .unknown => "UNKNOWN"
  | .default => "DEFAULT"
  | .bool => "BOOL"
  | .int => "INT"
  | .float => "FLOAT"
  | .rgba => "RGBA"
  | .vec3 => "VEC3"
  | .geometry => "GEOMETRY"
  | .string => "STRING"
  | .shader => "SHADER"
  | .object => "OBJECT"
  | .image => "IMAGE"
  | .collection => "COLLECTION"
  | .texture => "TEXTURE"
  | .material => "MATERIAL"

def ofLabel? (name : String) : Option DataType :=
  all.find? fun type => type.label == name

def ofWord? : String → Option DataType
  | "bool" => some .bool
  | "int" => some .int
  | "float" => some .float
  | "rgba" => some .rgba
  | "vec3" => some .vec3
  | "geo" => some .geometry
  | "str" => some .string
  | "shader" => some .shader
  | "obj" => some .object
  | "img" => some .image
  | "collection" => some .collection
  | "tex" => some .texture
  | "mat" => some .material
  | "_" => some .unknown
  | "" => some .default
  | _ => none

def shown (type : DataType) : String :=
  "<DataType." ++ type.label ++ ": " ++ toString type.code ++ ">"

/-- Types whose values convert into one another: everything up to vectors. -/
def isConvertible (type : DataType) : Bool := type.code ≤ vec3.code

/-- Whether values of one type may stand where another is expected. -/
def converts (source target : DataType) : Bool :=
  source == target || (source.isConvertible && target.isConvertible)

/-- The price of passing a value of one type as another.  A price of a thousand is never paid. -/
def penalty (source target : DataType) : Nat :=
  match source, target with
  | .unknown, .unknown | .unknown, .default | .default, .unknown | .default, .default => 0
  | .unknown, _ | .default, _ => 1
  | _, .unknown | _, .default => 0
  | .bool, .bool => 0
  | .bool, .int => 11
  | .bool, .float => 12
  | .bool, .rgba => 14
  | .bool, .vec3 => 13
  | .int, .bool => 22
  | .int, .int => 0
  | .int, .float => 11
  | .int, .rgba => 13
  | .int, .vec3 => 12
  | .float, .bool => 23
  | .float, .int => 22
  | .float, .float => 0
  | .float, .rgba => 12
  | .float, .vec3 => 11
  | .rgba, .bool => 25
  | .rgba, .int => 24
  | .rgba, .float => 23
  | .rgba, .rgba => 0
  | .rgba, .vec3 => 21
  | .vec3, .bool => 24
  | .vec3, .int => 23
  | .vec3, .float => 22
  | .vec3, .rgba => 11
  | .vec3, .vec3 => 0
  | source, target => if source = target then 0 else 1000

end DataType

end NodeFormula
