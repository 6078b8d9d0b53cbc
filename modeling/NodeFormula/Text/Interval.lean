/-!
# Intervals of code points

A long table of code points is a text of lengths that alternate: how many are left out, how many
belong to it, and so on.
-/

namespace NodeFormula.Text

def numbersIn (text : String) : List Int :=
  ((text.map fun c => if c == '\n' then ' ' else c).splitOn " ").filterMap (·.toInt?)

def intervalsFrom (start : Nat) : List Nat → List (Nat × Nat)
  | gap :: length :: lengths =>
    (start + gap, start + gap + length - 1) :: intervalsFrom (start + gap + length) lengths
  | _ => []

def intervals (start : Nat) (lengths : String) : List (Nat × Nat) :=
  intervalsFrom start ((numbersIn lengths).map (·.toNat))

end NodeFormula.Text
