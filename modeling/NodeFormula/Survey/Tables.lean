import NodeFormula.Survey

/-!
# The tables of a survey

The findings of a survey are written to a file as tables, between two marks.  The
entries of a table are in the order of their texts.
-/

namespace NodeFormula.Survey

def listed (items : List String) : String := "[" ++ ", ".intercalate items ++ "]"

def socketEntry (socket : String × DataType) : String :=
  "('" ++ socket.1 ++ "', DataType." ++ socket.2.label ++ ")"

def shapeEntry (node : String × NodeShape) : String :=
  "'" ++ node.1 ++ "' : BuiltinNode(" ++ listed (node.2.inputs.map socketEntry) ++ ",\n\t\t" ++
    listed (node.2.outputs.map socketEntry) ++ "),"

def choiceEntry (choice : String × Value) : String :=
  "(" ++ Text.quoted choice.1 ++ ", " ++ choice.2.written ++ ")"

def aliasEntry (entry : String × NodeRecipe) : String :=
  let recipe := entry.2
  "'" ++ entry.1 ++ "' : NodeInstance('" ++ recipe.key ++ "', " ++
    listed (recipe.inputs.map toString) ++ ", " ++ listed (recipe.outputs.map toString) ++ ", " ++
    listed (recipe.props.map choiceEntry) ++ "),"

def inOrder (entries : List String) : List String := entries.mergeSort fun a b => !decide (b < a)

def table (name : String) (entries : List String) : String :=
  name ++ " = \x7b\n\t" ++ "\n\t".intercalate (inOrder entries) ++ "\n\x7d\n\n"

def Findings.block (findings : Findings) : String :=
  "\n# fmt: off\n" ++ table "nodes" (findings.shapes.map shapeEntry) ++
    table "shader_geo_node_aliases" (findings.shared.map aliasEntry) ++
    table "geometry_node_aliases" (findings.geometry.map aliasEntry) ++
    table "shader_node_aliases" (findings.shader.map aliasEntry) ++ "# fmt: on\n\n"

def startMark : String := "# Start auto generated\n"

def endMark : String := "# End auto generated\n"

def position? (part : List Char) : List Char → Option Nat
  | [] => if part.isEmpty then some 0 else none
  | c :: rest =>
    if part.isPrefixOf (c :: rest) then some 0 else (position? part rest).map (· + 1)

def replaceBlock? (text block : List Char) : Option (List Char) := do
  let start ← position? startMark.toList text
  let finish ← position? endMark.toList text
  return text.take (start + startMark.length) ++ block ++ text.drop finish

def savedBytes (text : String) : List UInt8 := text.toUTF8.toList.take text.length

/-- How much text stands before the first mark and from the second mark on. -/
structure Margins where
  before : Nat
  after : Nat
deriving DecidableEq, Repr

def standardMargins : Margins := ⟨581, 3214⟩

def danglingAliases : List String :=
  let tables := [Catalog.sharedOverloads, Catalog.geometryOverloads, Catalog.shaderOverloads]
  (tables.flatten.flatMap (·.2)).filterMap fun candidate =>
    match candidate with
    | .alias name =>
      if (TreeKind.geometry.alias? name).isSome || (TreeKind.shader.alias? name).isSome then none
      else some name
    | .direct _ => none

def remarks : List String := danglingAliases.map fun name => "Invalid alias: " ++ name

end NodeFormula.Survey
