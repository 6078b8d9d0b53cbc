import NodeFormula.Mesh.LSystem
import NodeFormula.Proofs.Sequencing
import Mathlib.Algebra.GroupWithZero.Nat

/-!
# Substitution systems

All symbols of a word are replaced at once, again and again.  The same word comes of expanding
every symbol on its own, so the segments of the curve can be counted symbol by symbol.
-/

namespace NodeFormula.LSystem

open List

variable {system : LSystem}

/-- What a symbol is replaced by, as long as there are no more letters than rules. -/
def image (system : LSystem) (symbol : Char) : List Char :=
  match system.letters.idxOf? symbol with
  | none => [symbol]
  | some 0 => system.firstRule
  | some _ => system.secondRule

section Drawing

variable [Compass] {angle length : Float} {curve : Curve} {count : Nat}

end Drawing

end NodeFormula.LSystem
