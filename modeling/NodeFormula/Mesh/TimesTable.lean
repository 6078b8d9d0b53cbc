import NodeFormula.Calculation.Function
import NodeFormula.Mesh

/-!
# Times tables

The points of a circle are numbered, and each is connected to the one whose number
is the product of its own with a multiplier, counted around the circle.
-/

namespace NodeFormula

structure TimesTable where
  base : Nat
  multiplier : Int
  radius : Quantity
  hasSkin : Bool
  skinRadius : Value

namespace TimesTable

def target (table : TimesTable) (point : Nat) : Nat :=
  ((point * table.multiplier) % (table.base : Int)).toNat

def edges (table : TimesTable) : List (Nat × Nat) :=
  (List.range table.base).filterMap fun point =>
    if table.target point = point then none else some (point, table.target point)

def angle (table : TimesTable) (point : Nat) : Float :=
  Calculation.ratioToFloat point table.base * Calculation.pi * 2.0

def vertices (table : TimesTable) (radius : Float) : List Vertex :=
  (List.range table.base).map fun point =>
    ⟨.float (radius * (table.angle point).cos), .float (radius * (table.angle point).sin), .int 0⟩

def skinRequests (table : TimesTable) : List Request :=
  [Mesh.addModifier "SKIN", Mesh.toggleEditMode,
   .operator "mesh.select_all" [("action", .text "SELECT")],
   .operator "object.skin_root_mark" [],
   .operator "transform.skin_resize" [("value", table.skinRadius)], Mesh.toggleEditMode]

def mesh (table : TimesTable) : Except Fault Mesh := do
  let radius ← if table.base = 0 then pure 0.0 else calculated table.radius.toFloat
  let skin := if table.hasSkin then table.skinRequests else []
  return ⟨"Times Table", table.vertices radius, table.edges, [], 0,
    Mesh.linkObject "Times Table" :: skin, []⟩

end TimesTable

end NodeFormula
