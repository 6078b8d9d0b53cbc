import NodeFormula.Text.LetterTable
import NodeFormula.Text.DigitTable
import NodeFormula.Text.UnprintableTable
import NodeFormula.Text.CaseTable

/-!
# Character classes of formula text

A character is a letter, a decimal digit, a numeral, blank or printable.  Below U+0080 these are
short tests; above it they are interval tables.
-/

namespace NodeFormula.Text

def within (intervals : List (Nat × Nat)) (code : Nat) : Bool :=
  intervals.any fun interval => interval.1 ≤ code && code ≤ interval.2

def isLetter (c : Char) : Bool :=
  if c.toNat < 128 then c.isAlpha else within letterIntervals c.toNat

def isDigit (c : Char) : Bool :=
  if c.toNat < 128 then c.isDigit else within decimalIntervals c.toNat

def isNumeral (c : Char) : Bool :=
  if c.toNat < 128 then c.isDigit else within numeralIntervals c.toNat

def digitValue? (c : Char) : Option Nat :=
  if c.toNat < 128 then
    if c.isDigit then some (c.toNat - 48) else none
  else
    (decimalIntervals.find? fun interval => interval.1 ≤ c.toNat && c.toNat ≤ interval.2).map
      fun interval => (c.toNat - interval.1) % 10

/-- Blank characters: separators, tabulators and line ends of any script. -/
def isBlank (c : Char) : Bool :=
  let code := c.toNat
  if code < 128 then (9 ≤ code && code ≤ 13) || (28 ≤ code && code ≤ 32)
  else
    within [(0x85, 0x85), (0xA0, 0xA0), (0x1680, 0x1680), (0x2000, 0x200A), (0x2028, 0x2029),
      (0x202F, 0x202F), (0x205F, 0x205F), (0x3000, 0x3000)] code

def isPrintable (c : Char) : Bool :=
  let code := c.toNat
  if code < 128 then 32 ≤ code && code < 127
  else !within unprintableIntervals code

/-- The small form of a character, for one capital a letter with a combining dot. -/
def toSmall (c : Char) : List Char :=
  let code := c.toNat
  if code < 128 then [c.toLower]
  else if code = 0x130 then ['i', Char.ofNat 0x307]
  else
    match caseRuns.find? fun run =>
        run.first ≤ code && code ≤ run.last && (code - run.first) % run.step == 0 with
    | some run => [Char.ofNat ((code : Int) + run.shift).toNat]
    | none => [c]

def small (text : String) : String :=
  String.ofList (text.toList.flatMap toSmall)

end NodeFormula.Text
