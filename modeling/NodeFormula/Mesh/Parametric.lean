import NodeFormula.Calculation.Function
import NodeFormula.Mesh

/-!
# Parametric surfaces

The coordinates of a surface are calculations with two parameters that run through
a grid.  Two further calculations can be used as abbreviations.  A calculation also
sees the results for the vertex before.
-/

namespace NodeFormula

open NodeFormula.Calculation (Problem Expression Binary)

structure ParametricSurface where
  columns : Int
  cells : Int
  columnFrom : Quantity
  columnTo : Quantity
  cellFrom : Quantity
  cellTo : Quantity
  firstHelp : String
  secondHelp : String
  xText : String
  yText : String
  zText : String
  subdivision : Int
  isSmooth : Bool
  mergesVertices : Bool

namespace ParametricSurface

abbrev Definition := String × Expression

def bind (names : List (String × Quantity)) (name : String) (value : Quantity) :
    List (String × Quantity) :=
  (name, value) :: names.filter (·.1 != name)

def readText (text : String) : Except Problem Expression :=
  if text.startsWith " " || text.startsWith "\t" then .error .unexpectedIndent
  else Expression.read text

def evalAll (names : List (String × Quantity)) :
    List Definition → Except Problem (List (String × Quantity))
  | [] => .ok names
  | (name, expression) :: rest => do
    let value ← expression.eval names
    evalAll (bind names name value) rest

def resultOf (names : List (String × Quantity)) (name : String) : Quantity :=
  (names.lookup name).getD .nothing

def column (definitions : List Definition) (step : Quantity) :
    Nat → Nat → Quantity → List (String × Quantity) →
      Except Problem (List Vertex × List (String × Quantity))
  | 0, _, _, names => .ok ([], names)
  | count + 1, index, v, names => do
    let names := bind (bind names "j" (.int index)) "v" v
    let names ← evalAll names definitions
    let (x, y, z) := (resultOf names "x", resultOf names "y", resultOf names "z")
    let names := bind names "vert" (.tuple [x, y, z])
    let next ← Binary.add.apply v step
    let (rest, names) ← column definitions step count (index + 1) next (bind names "v" next)
    return (⟨x, y, z⟩ :: rest, names)

def columnsFrom (definitions : List Definition) (across along start : Quantity) (cells : Nat) :
    Nat → Nat → Quantity → List (String × Quantity) → Except Problem (List Vertex)
  | 0, _, _, _ => .ok []
  | count + 1, index, u, names => do
    let names := bind (bind (bind names "i" (.int index)) "u" u) "v" start
    let (first, names) ← column definitions along cells 0 start names
    let next ← Binary.add.apply u across
    let rest ← columnsFrom definitions across along start cells count (index + 1) next names
    return first ++ rest

def stepWidth (start stop : Quantity) (count : Int) : Except Problem Quantity := do
  Binary.div.apply (← Binary.sub.apply stop start) (.int count)

def vertices (surface : ParametricSurface) : Except Problem (List Vertex) := do
  let across ← stepWidth surface.columnFrom surface.columnTo surface.columns
  let along ← stepWidth surface.cellFrom surface.cellTo surface.cells
  let firstHelp ← readText surface.firstHelp
  let secondHelp ← readText surface.secondHelp
  let x ← readText surface.xText
  let y ← readText surface.yText
  let z ← readText surface.zText
  let names : List (String × Quantity) :=
    [("Unum", .int surface.columns), ("Vnum", .int surface.cells), ("Uinc", across),
     ("Vinc", along), ("edges", .tuple []), ("faces", .tuple [])]
  columnsFrom [("a", firstHelp), ("b", secondHelp), ("x", x), ("y", y), ("z", z)] across along
    surface.cellFrom (surface.cells + 1).toNat
      (surface.columns + 1).toNat 0 surface.columnFrom names

def mesh (surface : ParametricSurface) : Except Fault Mesh := do
  let vertices ← calculated surface.vertices
  let faces := Mesh.gridFaces surface.columns.toNat surface.cells.toNat
  let merging := if surface.mergesVertices then [Mesh.mergeVertices] else []
  let (more, modifiers) := Mesh.subdivision surface.subdivision
  return ⟨"Parametric", vertices, [], faces, if surface.isSmooth then faces.length else 0,
    [Mesh.updateMesh, Mesh.linkObject "Parametric", Mesh.toggleEditMode] ++ merging ++
      [Mesh.alignNormals, Mesh.toggleEditMode] ++ more, modifiers⟩

end ParametricSurface

end NodeFormula
