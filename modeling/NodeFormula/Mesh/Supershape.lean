import NodeFormula.Calculation.Function
import NodeFormula.Mesh

/-!
# Supershapes

A supershape is a sphere whose radius varies by the superformula, once around the
equator and once from pole to pole.
-/

namespace NodeFormula

open NodeFormula.Calculation (Problem)

/-- The two releases of the application that the operator is made for. -/
inductive Release
  | old | new
deriving DecidableEq, Repr

structure Supershape where
  symmetry : Quantity
  firstSize : Quantity
  secondSize : Quantity
  outer : Quantity
  firstInner : Quantity
  secondInner : Quantity
  detail : Int
  subdivision : Int
  isSmooth : Bool

namespace Supershape

def plus (left right : Quantity) : Except Problem Quantity :=
  Calculation.Binary.add.apply left right

def times (left right : Quantity) : Except Problem Quantity :=
  Calculation.Binary.mul.apply left right

def divided (left right : Quantity) : Except Problem Quantity :=
  Calculation.Binary.div.apply left right

def power (left right : Quantity) : Except Problem Quantity :=
  Calculation.Binary.pow.apply left right

def apply (name : String) (argument : Quantity) : Except Problem Quantity :=
  Calculation.applyFunction name [argument]

def term (function : String) (symmetry angle size exponent : Quantity) :
    Except Problem Quantity := do
  let turned ← divided (← times symmetry angle) (.int 4)
  power (← apply "abs" (← divided (← apply function turned) size)) exponent

def outerExponent (shape : Supershape) : Quantity :=
  if shape.outer.isTrue then shape.outer else .float 0.1

def radius (shape : Supershape) (angle : Quantity) : Except Problem Quantity := do
  let size ← Calculation.Unary.minus.apply shape.firstSize
  let first ← term "cos" shape.symmetry angle size shape.firstInner
  let second ← term "sin" shape.symmetry angle shape.secondSize shape.secondInner
  power (← plus first second) (← divided (.int (-1)) shape.outerExponent)

def vertex (theta phi around along : Quantity) : Except Problem Vertex := do
  let x ← times (← times (← times around (← apply "cos" theta)) along) (← apply "cos" phi)
  let y ← times (← times (← times around (← apply "sin" theta)) along) (← apply "cos" phi)
  let z ← times along (← apply "sin" phi)
  return ⟨x, y, z⟩

def meridian (shape : Supershape) (step theta around : Quantity) :
    Nat → Quantity → Except Problem (List Vertex)
  | 0, _ => .ok []
  | count + 1, phi => do
    let along ← shape.radius phi
    let first ← vertex theta phi around along
    let rest ← shape.meridian step theta around count (← plus phi step)
    return first :: rest

def halfTurn : Float := Calculation.pi

def meridians (shape : Supershape) (across along : Quantity) (rows : Nat) :
    Nat → Quantity → Except Problem (List Vertex)
  | 0, _ => .ok []
  | count + 1, theta => do
    let around ← shape.radius theta
    let first ← shape.meridian along theta around rows (.float (-halfTurn / 2.0))
    let rest ← shape.meridians across along rows count (← plus theta across)
    return first ++ rest

def vertices (shape : Supershape) : Except Problem (List Vertex) := do
  let _ ← Calculation.Unary.minus.apply shape.firstSize
  let half ← divided (.int shape.detail) (.int 2)
  let across ← divided (.float halfTurn) half
  let along ← divided (.float (halfTurn / 2.0)) half
  let count := (shape.detail + 1).toNat
  shape.meridians across along count count (.float (-halfTurn))

def finish (shape : Supershape) : Release → List Request × List ModifierLevel
  | .old =>
    let mode := fun (mode : String) => Request.operator "object.mode_set" [("mode", .text mode)]
    let requests :=
      [Mesh.updateMesh, mode "EDIT", Mesh.mergeVertices, Mesh.alignNormals, mode "OBJECT"]
    if shape.subdivision = 0 then (requests, [])
    else
      (requests ++ [⟨"modifiers.new", [.text "subd", .text "SUBSURF"], none⟩],
        [⟨"Supershape", "subd", shape.subdivision⟩])
  | .new =>
    let (more, modifiers) := Mesh.subdivision shape.subdivision
    ([Mesh.updateMesh, Mesh.linkObject "Supershape", Mesh.toggleEditMode, Mesh.mergeVertices,
      Mesh.alignNormals, Mesh.toggleEditMode] ++ more, modifiers)

def mesh (shape : Supershape) (release : Release) : Except Fault Mesh := do
  let vertices ← calculated shape.vertices
  let faces := Mesh.gridFaces shape.detail.toNat shape.detail.toNat
  let (requests, modifiers) := shape.finish release
  return ⟨"Supershape", vertices, [], faces, if shape.isSmooth then faces.length else 0, requests,
    modifiers⟩

end Supershape

end NodeFormula
