import NodeFormula.Calculation.Function
import NodeFormula.Mesh

/-!
# Fractals from substitution systems

A word is expanded by replacing its variables by their rules, all at once, a number of
times.  Then it is drawn: two symbols turn, the constants draw a segment, all others do nothing.
-/

namespace NodeFormula

/-- How directions are turned into unit vectors. -/
class Compass where
  unit : Float → Except Calculation.Problem (Float × Float)

/-- Cosine and sine, which an infinite direction does not have. -/
instance trigonometry : Compass where
  unit direction :=
    if direction.isInf then .error .outsideDomain else .ok (direction.cos, direction.sin)

/-- A substitution system and how it is drawn. -/
structure LSystem where
  letters : List Char
  constants : List Char
  firstRule : List Char
  secondRule : List Char
  startWord : List Char
  iterations : Nat
  angle : Quantity
  length : Quantity
  mergesVertices : Bool

namespace LSystem

def expandSymbol (system : LSystem) (symbol : Char) : Except Fault (List Char) :=
  match system.letters.idxOf? symbol with
  | none => .ok [symbol]
  | some 0 => .ok system.firstRule
  | some 1 => .ok system.secondRule
  | some _ => .error .listIndex

def expand (system : LSystem) : List Char → Except Fault (List Char)
  | [] => .ok []
  | symbol :: word => do
    let replaced ← system.expandSymbol symbol
    let rest ← system.expand word
    return replaced ++ rest

def derive (system : LSystem) : Nat → List Char → Except Fault (List Char)
  | 0, word => .ok word
  | count + 1, word => do system.derive count (← system.expand word)

def drawing (system : LSystem) : List Char :=
  if system.constants = ['+', '-'] || system.constants = ['-', '+'] then
    system.constants ++ system.letters
  else system.constants

/-- The curve so far, with its last corner and the direction from there. -/
structure Curve where
  direction : Float
  x : Float
  y : Float
  vertices : Array Vertex
  count : Nat
  edges : Array (Nat × Nat)

namespace Curve

def start : Curve := ⟨0.0, 0.0, 0.0, #[⟨.int 0, .int 0, .int 0⟩], 0, #[]⟩

def extend (curve : Curve) (x y : Float) : Curve :=
  let count := curve.count + 1
  { curve with
    x, y, count
    vertices := curve.vertices.push ⟨.float x, .float y, .int 0⟩
    edges := curve.edges.push (count - 1, count) }

end Curve

variable [Compass]

def draw (system : LSystem) (angle length : Float) (curve : Curve) (symbol : Char) :
    Except Fault Curve :=
  if symbol = '+' then .ok { curve with direction := curve.direction + angle }
  else if symbol = '-' then .ok { curve with direction := curve.direction - angle }
  else if system.drawing.contains symbol then do
    let (cosine, sine) ← calculated (Compass.unit curve.direction)
    return curve.extend (curve.x + length * cosine) (curve.y + length * sine)
  else .ok curve

def meshOf (system : LSystem) (curve : Curve) : Mesh :=
  let merging := if system.mergesVertices then
      [Mesh.toggleEditMode, Mesh.mergeVertices, Mesh.toggleEditMode]
    else []
  ⟨"Fractal", curve.vertices.toList, curve.edges.toList, [], 0,
    Mesh.linkObject "Fractal" :: merging, []⟩

def mesh (system : LSystem) : Except Fault Mesh := do
  let angle ← calculated (Calculation.applyFunction "radians" [system.angle])
  let angle ← calculated angle.toFloat
  let word ← system.derive system.iterations system.startWord
  let length ← calculated system.length.toFloat
  let curve ← word.foldlM (system.draw angle length) .start
  return system.meshOf curve

end LSystem

end NodeFormula
