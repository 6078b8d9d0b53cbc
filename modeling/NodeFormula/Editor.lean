import NodeFormula.Token.Scan
import NodeFormula.Tree

/-!
# The formula editor

The editor holds the lines of a formula with their tokens, and a cursor, which remembers the
column it was last put in and is drawn at the end of shorter lines.
-/

namespace NodeFormula

open NodeFormula.Text

structure Editor where
  pos : Point
  lines : List (List Char)
  tokens : List (List Token)
  row : Nat
  col : Nat
  drawCol : Nat
  errors : List Report
  /-- The completions that are offered, the next one first. -/
  suggestions : List String

namespace Editor

def new (pos : Point) : Editor := ⟨pos, [[]], [[]], 0, 0, 0, [], []⟩

def text (editor : Editor) : List Char := List.intercalate ['\n'] editor.lines

def lineAt (editor : Editor) (row : Nat) : List Char := editor.lines.getD row []

def line (editor : Editor) : List Char := editor.lineAt editor.row

def scanLine (row : Nat) (line : List Char) : List Token :=
  (tokensFrom ⟨row + 1, 1, 0⟩ (line.takeWhile (· ≠ Char.ofNat 0))).dropLast

def rescan (editor : Editor) : Editor :=
  { editor with tokens := editor.tokens.set editor.row (scanLine editor.row editor.line) }

def withLine (editor : Editor) (line : List Char) : Editor :=
  { editor with lines := editor.lines.set editor.row line }.rescan

def atCol (editor : Editor) (col : Nat) : Editor := { editor with col, drawCol := col }

def withoutSuggestions (editor : Editor) : Editor := { editor with suggestions := [] }

/-! ## Moving the cursor -/

/-- Move the cursor to another line; it is drawn there as far right as it can be. -/
def atRow (editor : Editor) (row : Nat) : Editor :=
  { editor with row, drawCol := min (editor.lineAt row).length editor.col }

def up (editor : Editor) : Editor :=
  let editor := editor.withoutSuggestions
  if editor.row = 0 then editor else editor.atRow (editor.row - 1)

def down (editor : Editor) : Editor :=
  let editor := editor.withoutSuggestions
  if editor.row + 1 = editor.lines.length then editor else editor.atRow (editor.row + 1)

def left (editor : Editor) : Editor :=
  let editor := editor.withoutSuggestions
  if editor.drawCol = 0 then
    if editor.row = 0 then editor.atCol 0
    else { editor with row := editor.row - 1 }.atCol (editor.lineAt (editor.row - 1)).length
  else editor.atCol (editor.drawCol - 1)

def right (editor : Editor) : Editor :=
  let editor := editor.withoutSuggestions
  if editor.drawCol = editor.line.length then
    if editor.row + 1 = editor.lines.length then editor.atCol editor.drawCol
    else { editor with row := editor.row + 1 }.atCol 0
  else editor.atCol (editor.drawCol + 1)

def home (editor : Editor) : Editor := editor.withoutSuggestions.atCol 0

def toEnd (editor : Editor) : Editor := editor.withoutSuggestions.atCol editor.line.length

/-! ## Deleting -/

def dropNextLine (editor : Editor) : Editor :=
  { editor with
    lines := editor.lines.eraseIdx (editor.row + 1)
    tokens := editor.tokens.eraseIdx (editor.row + 1) }

def deleteBefore (editor : Editor) : Editor :=
  let editor := editor.withoutSuggestions
  if editor.drawCol = 0 then
    if editor.row = 0 then { editor with col := 0 }
    else
      let before := editor.lineAt (editor.row - 1)
      let joined := { editor with row := editor.row - 1 }.withLine (before ++ editor.line)
      (joined.atCol before.length).dropNextLine
  else
    let line := editor.line
    (editor.withLine (line.take (editor.drawCol - 1) ++ line.drop editor.drawCol)).atCol
      (editor.drawCol - 1)

/-- Delete the character after the cursor, or join the line with the next. -/
def deleteAfter (editor : Editor) : Editor :=
  let editor := { editor.withoutSuggestions with col := editor.drawCol }
  let line := editor.line
  if editor.drawCol = line.length then
    if editor.row + 1 = editor.lines.length then editor
    else (editor.withLine (line ++ editor.lineAt (editor.row + 1))).dropNextLine
  else editor.withLine (line.take editor.drawCol ++ line.drop (editor.drawCol + 1))

/-! ## Inserting -/

def lineWith (editor : Editor) (text : List Char) : List Char :=
  editor.line.take editor.drawCol ++ text ++ editor.line.drop editor.drawCol

def insert (editor : Editor) (text : List Char) : Editor :=
  (editor.withLine (editor.lineWith text)).atCol (editor.drawCol + text.length)

/-- Insert what was typed; the cursor moves by one column. -/
def type (editor : Editor) (text : List Char) : Editor :=
  let editor := editor.withoutSuggestions
  (editor.withLine (editor.lineWith text)).atCol (editor.drawCol + 1)

def replaceToken (editor : Editor) (token : Token) (text : List Char) : Editor :=
  let head := editor.line.take token.start ++ text
  (editor.withLine (head ++ editor.line.drop (token.start + token.lexeme.length))).atCol head.length

def indentation (line : List Char) : Nat := (line.takeWhile isBlank).length

/--
The character before the column that the cursor was last put in; before the first column stands the
last one of the line.
-/
def charBefore (editor : Editor) : Except Fault (Option Char) :=
  if editor.col = 0 then
    match editor.line.getLast? with
    | some char => .ok (some char)
    | none => .error .textIndex
  else .ok editor.line[editor.col - 1]?

abbrev Edit := EStateM Fault Editor

def blockOpener : Char := '\x7b'

/-- The line of the cursor broken in two, with blanks before the second part. -/
def broken (editor : Editor) (indent : Nat) : Editor :=
  let after := List.replicate indent ' ' ++ editor.line.drop editor.drawCol
  let next (first : Editor) : Editor := { first with
    row := first.row + 1
    lines := first.lines.insertIdx (first.row + 1) after
    tokens := first.tokens.insertIdx (first.row + 1) [] }
  -- A line of blanks has no tokens, so only the part of a line has to be read.
  if editor.drawCol = editor.line.length then (next editor).atCol indent
  else (next (editor.withLine (editor.line.take editor.drawCol))).rescan.atCol indent

/-- Break the line at the cursor; the new line is indented, deeper after an opening brace. -/
def newLine : Edit Unit := do
  modify withoutSuggestions
  let editor ← get
  match editor.charBefore with
  | .error fault => throw fault
  | .ok char =>
    let deeper := if char = some blockOpener then 2 else 0
    set (editor.broken (indentation editor.line + deeper))

def writeLine (line : List Char) : Edit Unit := do
  modify fun editor => { editor.withLine line with drawCol := line.length }
  newLine

/-- Write the further lines of a text that is pasted; `after` follows the last one. -/
def pasteLines (after : List Char) : List (List Char) → Edit Nat
  | [] | [[]] => return 0
  | [line] => do
    modify fun editor => { editor.withLine (line ++ after) with drawCol := 0 }
    return line.length
  | line :: lines => do
    writeLine line
    pasteLines after lines

def splitLines : List Char → List (List Char)
  | [] => [[]]
  | char :: rest =>
    if char = '\n' then [] :: splitLines rest
    else
      match splitLines rest with
      | line :: lines => (char :: line) :: lines
      | [] => [[char]]

/-- Write lines at the cursor; the result is the length of the last one. -/
def writeLines : List (List Char) → Edit Nat
  | [] => return 0
  | [line] => do
    modify fun editor => editor.withLine (editor.lineWith line)
    return line.length
  | line :: lines => do
    let editor ← get
    writeLine (editor.line.take editor.drawCol ++ line)
    pasteLines (editor.line.drop editor.drawCol) lines

def paste (text : List Char) : Edit Unit := do
  modify withoutSuggestions
  let length ← writeLines (splitLines text)
  modify fun editor => editor.atCol (editor.drawCol + length)

def replaceText (text : List Char) : Edit Unit := do
  modify fun editor => new editor.pos
  paste text

end Editor

end NodeFormula
