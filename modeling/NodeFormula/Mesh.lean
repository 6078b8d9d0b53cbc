import NodeFormula.Calculation.Arithmetic
import NodeFormula.Fault
import NodeFormula.Host

/-!
# Meshes

A mesh is made of vertices, edges and faces.  A surface over a grid has one face
for each cell of the grid.
-/

namespace NodeFormula

abbrev Quantity := Calculation.Value

structure Vertex where
  x : Quantity
  y : Quantity
  z : Quantity

structure QuadFace where
  first : Nat
  second : Nat
  third : Nat
  fourth : Nat
deriving DecidableEq, Repr

structure ModifierLevel where
  object : String
  modifier : String
  levels : Int
deriving DecidableEq, Repr

/-- What an operator that adds a mesh leaves behind. -/
structure Mesh where
  name : String
  vertices : List Vertex
  edges : List (Nat × Nat)
  faces : List QuadFace
  smoothCount : Nat
  requests : List Request
  modifiers : List ModifierLevel

namespace Mesh

/--
The faces of a surface over a grid with `cells` cells in each column, from a vertex on.  After each
column one vertex has no face.
-/
def facesFrom (cells : Nat) : Nat → Nat → Nat → List QuadFace
  | 0, _, _ => []
  | steps + 1, vertex, count =>
    if count < cells then
      ⟨vertex, vertex + 1, vertex + (cells + 1) + 1, vertex + (cells + 1)⟩ ::
        facesFrom cells steps (vertex + 1) (count + 1)
    else facesFrom cells steps (vertex + 1) 0

def gridFaces (columns cells : Nat) : List QuadFace := facesFrom cells ((cells + 1) * columns) 0 0

def linkObject (name : String) : Request := ⟨"object_data_add", [.text name], none⟩

def updateMesh : Request := .operator "mesh.update" [("calc_edges", .bool true)]

def toggleEditMode : Request := .operator "object.editmode_toggle" []

def mergeVertices : Request := .operator "mesh.remove_doubles" []

def alignNormals : Request := .operator "mesh.normals_make_consistent" [("inside", .bool false)]

def addModifier (type : String) : Request := .operator "object.modifier_add" [("type", .text type)]

def subdivision (levels : Int) : List Request × List ModifierLevel :=
  if levels = 0 then ([], []) else ([addModifier "SUBSURF"], [⟨"active", "Subdivision", levels⟩])

end Mesh

def calculated {α : Type} : Except Calculation.Problem α → Except Fault α
  | .ok value => .ok value
  | .error problem => .error (.calculation problem)

end NodeFormula
