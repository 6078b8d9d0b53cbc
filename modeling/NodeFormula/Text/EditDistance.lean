/-!
# Edit distance

The number of single-character insertions, deletions and replacements between
two texts, computed row by row.  The row for a prefix of the first text lists
the distances to every prefix of the second, the empty one first.
-/

namespace NodeFormula.Text

def nextEntries (letter : Char) (left diagonal : Nat) : List Char → List Nat → List Nat
  | other :: others, above :: row =>
    let entry := min (min (above + 1) (left + 1)) (diagonal + if letter = other then 0 else 1)
    entry :: nextEntries letter entry above others row
  | _, _ => []

def nextRow (letter : Char) (target : List Char) : List Nat → List Nat
  | [] => []
  | first :: row => (first + 1) :: nextEntries letter (first + 1) first target row

/-- The least number of single-character edits between two texts. -/
def editDistance (source target : String) : Nat :=
  let target := target.toList
  let row := source.toList.foldl (fun row letter => nextRow letter target row)
    (List.range (target.length + 1))
  row.getLastD 0

end NodeFormula.Text
