import NodeFormula.Text.Interval

/-!
# Small letters of capitals beyond ASCII

Capitals come in runs with one distance to their small letters. In many alphabets
capitals and small letters alternate, hence the step.
-/

namespace NodeFormula.Text

/-- Capitals `first`, `first + step`, … up to `last`, whose small letters are `shift` away. -/
structure CaseRun where
  first : Nat
  last : Nat
  step : Nat
  shift : Int

/-- Unbroken runs, each as the gap before it, its length and its shift. -/
def shiftedRuns (start : Nat) : List Int → List CaseRun
  | gap :: length :: shift :: runs =>
    let first := start + gap.toNat
    let next := first + length.toNat
    ⟨first, next - 1, 1, shift⟩ :: shiftedRuns next runs
  | _ => []

/-- Where capitals and small letters alternate, and then the runs with another distance. -/
def caseRuns : List CaseRun :=
  (intervals 0x100
    "0 47 3 5 2 15 2 45 2 5 4 3 2 1 3 1 5 1 6 1 7 5 2 1 4 1 2 1 3 3 2 1 3 1 8 1 2 1 2 17 2 17 3 3
     3 39 3 17 8 1 5 1 4 9 289 3 3 1 97 23 8 1 2 1 101 33 9 53 2 13 2 95 6353 149 11 95 644 1
     2780 1 6 5 6 1 2 1 10 99 8 3 4 1 31053 45 19 27 135 13 3 61 10 3 2 9 4 1 4 3 3 19 11 15 4 3
     6 1 5 3 28 1").map
    (fun (first, last) => ⟨first, last, 2, 1⟩) ++
  shiftedRuns 0xC0 (numbersIn
    "0 23 32 1 7 32 153 1 -121 8 1 210 4 1 206 2 2 205 3 1 79 0 1 202 0 1 203 2 1 205 0 1 207 1 1
     211 0 1 209 4 1 211 0 1 213 1 1 214 6 1 218 2 1 218 4 1 218 2 2 217 4 1 219 12 1 2 2 1 2 2 1
     2 38 1 2 4 1 -97 0 1 -56 40 1 -130 25 1 10795 2 1 -163 0 1 10792 4 1 -195 0 1 69 0 1 71 313
     1 116 6 1 38 1 3 37 1 1 64 1 2 63 1 17 32 1 9 32 35 1 8 36 1 -60 4 1 -7 3 3 -130 0 16 80 0
     32 32 144 1 15 112 38 48 2889 38 7264 1 1 7264 5 1 7264 722 80 38864 0 6 8 2202 43 -3008 2 3
     -3008 478 1 -7615 105 8 -8 8 6 -8 10 8 -8 8 8 -8 8 6 -8 11 1 -8 1 1 -8 1 1 -8 1 1 -8 8 8 -8
     24 8 -8 8 8 -8 8 8 -8 8 2 -8 0 2 -74 0 1 -9 11 4 -86 0 1 -9 11 2 -8 0 2 -100 12 2 -8 0 2
     -112 0 1 -7 11 2 -128 0 2 -126 0 1 -9 297 1 -7517 3 1 -8383 0 1 -8262 6 1 28 45 16 16 838 26
     26 1840 48 48 50 1 -10743 0 1 -3814 0 1 -10727 8 1 -10780 0 1 -10749 0 1 -10783 0 1 -10782
     13 2 -10815 31485 1 -35332 15 1 -42280 28 1 -42308 0 1 -42319 0 1 -42315 0 1 -42305 0 1
     -42308 1 1 -42258 0 1 -42282 0 1 -42261 0 1 928 16 1 -48 0 1 -42307 0 1 -35384 22362 26 32
     1221 40 40 136 36 40 156 11 39 1 15 39 1 7 39 1 2 39 1770 51 64 3053 32 32 21888 32 32 31392
     34 34")

end NodeFormula.Text
