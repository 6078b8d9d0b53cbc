import NodeFormula.Editor.Completion
import NodeFormula.Proofs.Sequencing
import NodeFormula.Proofs.Tiling
import Mathlib.Data.List.Basic
import Mathlib.Data.List.InsertIdx
import Mathlib.Data.List.GetD

/-!
# What editing keeps

The cursor cuts the lines into those above, the two parts of its own line and those
below.  `Editor.Cut` says this together with what all operations rely on: no line holds a line
end, and its tokens are those of scanning it.  Every operation leads from such a state to another
one, whose parts are given, also where it stops with a fault.
-/

namespace NodeFormula

open List NodeFormula.Text Token

variable {after line text : List Char} {editor : Editor} {lines : List (List Char)} {row : Nat}

/-! ## The tokens of a line -/

/-- What a token is inside its line, whichever line that is. -/
def Token.inLine (token : Token) : TokenKind × String × Nat × Nat :=
  (token.kind, token.lexeme, token.col, token.start)

def lineTokens (line : List Char) : List (TokenKind × String × Nat × Nat) :=
  (scan (String.ofList line)).dropLast.map inLine

theorem inLine_scanLine (row : Nat) (line : List Char) :
    (Editor.scanLine row line).map inLine = lineTokens line := by
  have moved : (⟨row + 1, 1, 0⟩ : Place) = Place.origin.shift row 0 := by
    rw [Nat.add_comm]
    rfl
  rw [Editor.scanLine, lineTokens, scan, effectiveText, String.toList_ofList, moved,
    tokensFrom_shift, ← map_dropLast, map_map]
  rfl

theorem lineTokens_blanks (count : Nat) : lineTokens (replicate count ' ') = [] := by
  have blank (place : Place) : ∃ here : Place,
      tokensFrom place (replicate count ' ') = [here.endToken] := by
    induction count generalizing place with
    | zero => exact ⟨place, by rw [tokensFrom]; rfl⟩
    | succ _ ih =>
      rw [replicate_succ, tokensFrom_blank]
      exact ih _
  have whole : (replicate count ' ').takeWhile (· ≠ Char.ofNat 0) =
      replicate count ' ' := by
    rw [takeWhile_eq_self_iff]
    intro _ member
    rw [eq_of_mem_replicate member]
    decide
  obtain ⟨_, scanned⟩ := blank .origin
  rw [lineTokens, scan, effectiveText, String.toList_ofList, whole, scanned]
  rfl

theorem Tiled.congr (tiled : Tiled offset text tokens)
    (same : others.map inLine = tokens.map inLine) : Tiled offset text others := by
  induction tiled generalizing others with
  | done =>
    rw [map_eq_nil_iff.1 same]
    exact .done
  | blank isBlank _ ih => exact .blank isBlank (ih same)
  | comment unbroken ends _ ih => exact .comment unbroken ends (ih same)
  | lexeme nonempty _ ih =>
    obtain ⟨other, others, rfl, alike, rest⟩ := map_eq_cons_iff.1 same
    simp only [inLine, Prod.mk.injEq] at alike
    obtain ⟨_, lexeme, _, start⟩ := alike
    rw [← lexeme] at nonempty ih ⊢
    rw [← start] at ih ⊢
    exact .lexeme nonempty (ih rest)

def Unbroken (name : String) : Prop := '\n' ∉ name.toList

/-! ## A flat text -/

/-- A text with a place between two of its characters, or at one of its ends. -/
structure Buffer where
  text : List Char
  offset : Nat

namespace Buffer

def insert (buffer : Buffer) (char : Char) : Buffer :=
  ⟨buffer.text.take buffer.offset ++ char :: buffer.text.drop buffer.offset, buffer.offset + 1⟩

def deleteBefore (buffer : Buffer) : Buffer :=
  if buffer.offset = 0 then buffer
  else ⟨buffer.text.eraseIdx (buffer.offset - 1), buffer.offset - 1⟩

def deleteAfter (buffer : Buffer) : Buffer := ⟨buffer.text.eraseIdx buffer.offset, buffer.offset⟩

def left (buffer : Buffer) : Buffer := ⟨buffer.text, buffer.offset - 1⟩

def right (buffer : Buffer) : Buffer :=
  ⟨buffer.text, min (buffer.offset + 1) buffer.text.length⟩

def toLineStart (buffer : Buffer) : Buffer :=
  ⟨buffer.text, buffer.offset -
    ((buffer.text.take buffer.offset).reverse.takeWhile (· ≠ '\n')).length⟩

def toLineEnd (buffer : Buffer) : Buffer :=
  ⟨buffer.text, buffer.offset + ((buffer.text.drop buffer.offset).takeWhile (· ≠ '\n')).length⟩

def insertText (buffer : Buffer) (text : List Char) : Buffer :=
  ⟨buffer.text.take buffer.offset ++ text ++ buffer.text.drop buffer.offset,
    buffer.offset + text.length⟩

def clearLine (buffer : Buffer) : Buffer :=
  ⟨buffer.text.take buffer.offset ++ buffer.text.drop buffer.toLineEnd.offset, buffer.offset⟩

/-- Insert a text.  A line end at its end replaces what follows in the line by so many blanks. -/
def pasteText (buffer : Buffer) (text : List Char) (indent : Nat) : Buffer :=
  if text.getLast? = some '\n' then buffer.clearLine.insertText (text ++ List.replicate indent ' ')
  else buffer.insertText text

def between (before after : List Char) : Buffer := ⟨before ++ after, before.length⟩

theorem insert_between : (between before after).insert char = between (before ++ [char]) after := by
  simp [insert, between]

theorem deleteBefore_between :
    (between (before ++ [char]) after).deleteBefore = between before after := by
  simp [deleteBefore, between, eraseIdx_append_of_length_le]

theorem deleteAfter_between :
    (between before (char :: after)).deleteAfter = between before after := by
  simp [deleteAfter, between, eraseIdx_append_of_length_le]

theorem deleteAfter_end : (between before []).deleteAfter = between before [] := by
  simp [deleteAfter, between]

theorem left_between :
    (between (before ++ [char]) after).left = between before (char :: after) := by
  simp [left, between]

theorem right_between :
    (between before (char :: after)).right = between (before ++ [char]) after := by
  simp [right, between]

theorem right_end : (between before []).right = between before [] := by
  simp [right, between]

theorem takeWhile_unbroken (unbroken : '\n' ∉ text) (ends : ∀ char ∈ rest.head?, char = '\n') :
    (text ++ rest).takeWhile (· ≠ '\n') = text := by
  rw [takeWhile_append_of_pos]
  · cases rest with
    | nil => simp
    | cons char => simp [ends char rfl]
  · intro _ member
    rw [decide_eq_true_eq]
    rintro rfl
    exact unbroken member

theorem toLineStart_between (unbroken : '\n' ∉ front)
    (starts : ∀ char ∈ before.getLast?, char = '\n') :
    (between (before ++ front) after).toLineStart = between before (front ++ after) := by
  have back : (before ++ front).reverse.takeWhile (· ≠ '\n') = front.reverse := by
    rw [reverse_append]
    apply takeWhile_unbroken
    · rwa [mem_reverse]
    · rwa [head?_reverse]
  simp only [toLineStart, between, take_left, back]
  simp

theorem toLineEnd_between (unbroken : '\n' ∉ front) (ends : ∀ char ∈ after.head?, char = '\n') :
    (between before (front ++ after)).toLineEnd = between (before ++ front) after := by
  simp only [toLineEnd, between, drop_left, takeWhile_unbroken unbroken ends]
  simp

theorem insertText_between (text : List Char) :
    (between before after).insertText text = between (before ++ text) after := by
  simp [insertText, between]

theorem clearLine_between (unbroken : '\n' ∉ front) (ends : ∀ char ∈ after.head?, char = '\n') :
    (between before (front ++ after)).clearLine = between before after := by
  rw [clearLine, toLineEnd_between unbroken ends]
  simp [between]

theorem pasteText_between (unbroken : '\n' ∉ front) (ends : ∀ char ∈ after.head?, char = '\n')
    (text : List Char) (indent : Nat) : (between before (front ++ after)).pasteText text indent =
      if text.getLast? = some '\n' then between (before ++ (text ++ replicate indent ' ')) after
      else between (before ++ text) (front ++ after) := by
  rw [pasteText, clearLine_between unbroken ends, insertText_between, insertText_between]

end Buffer

namespace Editor

def buffer (editor : Editor) : Buffer := ⟨editor.text, editor.lineOffset + editor.drawCol⟩

def linesBefore (lines : List (List Char)) : List Char := lines.flatMap (· ++ ['\n'])

def linesAfter (lines : List (List Char)) : List Char := lines.flatMap ('\n' :: ·)

theorem linesBefore_concat (lines : List (List Char)) (line : List Char) :
    linesBefore (lines ++ [line]) = linesBefore lines ++ line ++ ['\n'] := by
  simp [linesBefore]

theorem linesAfter_nil : linesAfter [] = [] := rfl

theorem linesAfter_cons (line : List Char) (lines : List (List Char)) :
    linesAfter (line :: lines) = '\n' :: line ++ linesAfter lines := by
  simp [linesAfter]

theorem getLast_linesBefore (lines : List (List Char)) :
    ∀ char ∈ (linesBefore lines).getLast?, char = '\n' := by
  rcases lines.eq_nil_or_concat' with rfl | ⟨init, last, rfl⟩
  · exact nofun
  · simp [linesBefore_concat]

theorem head_linesAfter (lines : List (List Char)) :
    ∀ char ∈ (linesAfter lines).head?, char = '\n' := by
  cases lines with
  | nil => exact nofun
  | cons => simp [linesAfter]

theorem intercalate_cut (above : List (List Char)) (line : List Char) (below : List (List Char)) :
    intercalate ['\n'] (above ++ line :: below) =
      linesBefore above ++ line ++ linesAfter below := by
  induction above with
  | nil =>
    induction below generalizing line with
    | nil => simp [linesBefore, linesAfter]
    | cons next below ih =>
      rw [nil_append, intercalate_cons_cons, ← nil_append (next :: below), ih]
      simp [linesBefore, linesAfter]
  | cons _ _ ih =>
    rw [cons_append, intercalate_cons_of_ne_nil (by simp), ih]
    simp [linesBefore]

theorem total_lengths (lines : List (List Char)) :
    lines.foldr (·.length + 1 + ·) 0 = (linesBefore lines).length := by
  induction lines with
  | nil => rfl
  | cons line lines ih =>
    rw [foldr_cons, ih, linesBefore, linesBefore, flatMap_cons, length_append, length_append]
    rfl

theorem insertIdx_cut (before : List α) (here next : α) (after : List α) :
    (before ++ here :: after).insertIdx (before.length + 1) next =
      before ++ here :: next :: after := by
  induction before with
  | nil => rfl
  | cons first _ ih => exact congrArg (first :: ·) ih

theorem unbroken_splitLines (text : List Char) : ∀ line ∈ splitLines text, '\n' ∉ line := by
  induction text with
  | nil => simp [splitLines]
  | cons char rest ih =>
    rw [splitLines]
    split_ifs with ends
    · simpa using ih
    · have other : '\n' ≠ char := Ne.symm ends
      cases split : splitLines rest with
      | nil => simpa using other
      | cons =>
        rw [split] at ih
        simpa [other] using ih

theorem splitLines_append (unbroken : '\n' ∉ front)
    (split : splitLines text = line :: lines) :
    splitLines (front ++ text) = (front ++ line) :: lines := by
  induction front with
  | nil => exact split
  | cons _ _ ih =>
    rw [mem_cons, not_or] at unbroken
    rw [cons_append, splitLines, if_neg (Ne.symm unbroken.1), ih unbroken.2]
    rfl

theorem splitLines_concat (text : List Char) :
    ∃ lines last, splitLines text = lines ++ [last] ∧ text = linesBefore lines ++ last := by
  induction text with
  | nil => exact ⟨[], [], rfl, rfl⟩
  | cons char _ ih =>
    obtain ⟨lines, last, split, rfl⟩ := ih
    rw [splitLines, split]
    split_ifs with ends
    · exact ⟨[] :: lines, last, rfl, by simp [linesBefore, ends]⟩
    · cases lines with
      | nil => exact ⟨[], char :: last, rfl, rfl⟩
      | cons line lines => exact ⟨(char :: line) :: lines, last, rfl, rfl⟩

/-! ## Indentation -/

/-- The line below is indented as the line itself, or deeper after an opening brace. -/
def indentBelow (line : List Char) (before : Option Char) : Nat :=
  indentation line + if before = some blockOpener then 2 else 0

/--
The indentation below a line with the cursor in a column: what counts is the character before it,
and in the first column the last one of the line.
-/
def nextIndent (col : Nat) (text : List Char) : Option Nat :=
  if col = 0 then text.getLast?.map fun char => indentBelow text (some char)
  else some (indentBelow text text[col - 1]?)

def lastIndent (col : Nat) : List (List Char) → Option Nat
  | [] => some col
  | line :: lines => (nextIndent col line).bind (lastIndent · lines)

theorem nextIndent_eq_none {col : Nat} : nextIndent col line = none ↔ col = 0 ∧ line = [] := by
  rw [nextIndent]
  split_ifs with first <;> simp [first]

/-- A line is broken unless it is empty with the cursor put into its first column. -/
theorem newLine_eq (editor : Editor) :
    newLine editor = match nextIndent editor.col editor.line with
      | none => .error .textIndex editor.withoutSuggestions
      | some indent => .ok () (editor.withoutSuggestions.broken indent) := by
  have same : editor.withoutSuggestions.charBefore = editor.charBefore := rfl
  rw [newLine, bind_modify, bind_get, same, charBefore, nextIndent]
  split_ifs
  · cases editor.line.getLast? <;> rfl
  · rfl

theorem pasteLines_cons (more : lines ≠ []) :
    pasteLines after (line :: lines) = (do writeLine line; pasteLines after lines) := by
  cases lines with
  | nil => exact absurd rfl more
  | cons => cases line <;> rfl

theorem writeLines_cons (more : lines ≠ []) :
    writeLines (line :: lines) editor = (do
      writeLine (editor.line.take editor.drawCol ++ line)
      pasteLines (editor.line.drop editor.drawCol) lines) editor := by
  cases lines with
  | nil => exact absurd rfl more
  | cons => rfl

theorem getLast_broken (unbroken : '\n' ∉ last) :
    (linesBefore lines ++ last).getLast? = some '\n' ↔ lines ≠ [] ∧ last = [] := by
  rcases last.eq_nil_or_concat' with rfl | ⟨init, char, rfl⟩
  · rcases lines.eq_nil_or_concat' with rfl | ⟨init, line, rfl⟩
    · simp [linesBefore]
    · simp [linesBefore_concat]
  · simp only [mem_append, mem_singleton, not_or] at unbroken
    simp [Ne.symm unbroken.2]

/-! ## The cursor in the lines -/

/--
The cursor stands between two parts of a line, with lines above and below.  No line nor name that is
offered holds a line end, and the tokens are those of the lines.
-/
structure Cut (editor : Editor) (above : List (List Char)) (front back : List Char)
    (below : List (List Char)) : Prop where
  lines : editor.lines = above ++ (front ++ back) :: below
  row : editor.row = above.length
  drawCol : editor.drawCol = front.length
  unbroken : ∀ line ∈ editor.lines, '\n' ∉ line
  tokens : editor.tokens.map (List.map inLine) = editor.lines.map lineTokens
  suggestions : ∀ name ∈ editor.suggestions, Unbroken name

/-- A cut at the cursor, which is drawn where it was put or at the end of its line. -/
structure Consistent (editor : Editor) : Prop where
  cut : ∃ above front back below, editor.Cut above front back below
  drawn : editor.drawCol = min editor.col editor.line.length

/-- A consistent state with a text and a place in it. -/
structure Shows (editor : Editor) (buffer : Buffer) : Prop where
  consistent : editor.Consistent
  buffer_eq : editor.buffer = buffer

/--
An operation ends in a state as described, or stops with a fault as described in a consistent one.
-/
def Settles (stops : Fault → Prop) (good : α → Editor → Prop) :
    EStateM.Result Fault Editor α → Prop
  | .ok value editor => good value editor
  | .error fault editor => stops fault ∧ editor.Consistent

theorem Settles.bind {good : β → Editor → Prop} {next : α → Edit β}
    (settles : Settles first reached (operation editor))
    (halts : ∀ fault, first fault → stops fault)
    (continues : ∀ value middle, reached value middle → Settles stops good (next value middle)) :
    Settles stops good ((operation >>= next) editor) := by
  show Settles stops good (EStateM.bind operation next editor)
  revert settles
  rw [EStateM.bind]
  cases operation editor with
  | ok value middle => exact continues value middle
  | error fault => exact And.imp_left (halts fault)

def Stuck (col : Nat) (lines : List (List Char)) (fault : Fault) : Prop :=
  fault = .textIndex ∧ lastIndent col lines = none

/--
Lines are written whole, each indented below the one before; then follows the rest, unless the last
one is empty.
-/
def Pasted (above : List (List Char)) (col : Nat) (lines : List (List Char))
    (last after : List Char) (below : List (List Char)) (length : Nat) (next : Editor) : Prop :=
  ∃ indent, lastIndent col lines = some indent ∧
    (next.atCol (next.drawCol + length)).Cut (above ++ lines)
      (if last = [] then List.replicate indent ' ' else last)
        (if last = [] then [] else after) below

theorem lineAt_of (lines : editor.lines = above ++ line :: below) (isRow : row = above.length) :
    editor.lineAt row = line := by
  rw [lineAt, lines, isRow, getD_append_right _ _ _ _ le_rfl, Nat.sub_self]
  rfl

theorem col_broken (editor : Editor) (indent : Nat) : (editor.broken indent).col = indent := by
  rw [broken]
  split_ifs <;> rfl

theorem inLine_rescan (lines : editor.lines = above ++ line :: below)
    (isRow : editor.row = above.length) : editor.rescan.tokens.map (List.map inLine) =
      (editor.tokens.map (List.map inLine)).set above.length (lineTokens line) := by
  rw [rescan, map_set, inLine_scanLine, Editor.line, lineAt_of lines isRow, isRow]

namespace Cut

variable {next : List Char} {lines : List (List Char)} {col drawCol : Nat}
  {up down : List (List Char)}
variable {left right : List Char}

section

variable (cut : editor.Cut above front back below)
include cut

theorem line_eq : editor.line = front ++ back :=
  lineAt_of cut.lines cut.row

theorem alike (row : Nat) :
    (editor.tokens.getD row []).map inLine = lineTokens (editor.lineAt row) := by
  have empty : lineTokens [] = [] := lineTokens_blanks 0
  rw [lineAt, ← List.getD_map _ _ lineTokens, ← cut.tokens, empty]
  exact (List.getD_map _ _ (List.map inLine)).symm

theorem tiled (row : Nat) :
    Tiled 0 ((editor.lineAt row).takeWhile (· ≠ Char.ofNat 0)) (editor.tokens.getD row []) := by
  obtain ⟨found, last, isScan, tiled, _⟩ :=
    tiled_tokensFrom .origin ((editor.lineAt row).takeWhile (· ≠ Char.ofNat 0))
  refine tiled.congr ?_
  rw [cut.alike, lineTokens, scan, effectiveText, String.toList_ofList, isScan, dropLast_concat]

theorem unbroken_line : '\n' ∉ front ∧ '\n' ∉ back := by
  have unbroken := cut.unbroken (front ++ back) (by simp [cut.lines])
  rwa [mem_append, not_or] at unbroken

theorem isStart_iff : editor.drawCol = 0 ↔ front = [] := by
  rw [cut.drawCol, length_eq_zero_iff]

theorem isEnd_iff : editor.drawCol = editor.line.length ↔ back = [] := by
  rw [cut.drawCol, cut.line_eq, length_append, Nat.left_eq_add, length_eq_zero_iff]

theorem isFirst_iff : editor.row = 0 ↔ above = [] := by
  rw [cut.row, length_eq_zero_iff]

theorem isLast_iff : editor.row + 1 = editor.lines.length ↔ below = [] := by
  rw [cut.row, cut.lines, length_append, length_cons, ← length_eq_zero_iff]
  omega

theorem lineWith_eq (text : List Char) : editor.lineWith text = front ++ text ++ back := by
  rw [lineWith, cut.line_eq, cut.drawCol, take_left, drop_left]

theorem withoutSuggestions : editor.withoutSuggestions.Cut above front back below :=
  ⟨cut.lines, cut.row, cut.drawCol, cut.unbroken, cut.tokens, nofun⟩

theorem move (same : editor.lines = up ++ (left ++ right) :: down) (isRow : row = up.length)
    (isCol : drawCol = left.length) : Cut { editor with row, col, drawCol } up left right down :=
  ⟨same, isRow, isCol, cut.unbroken, cut.tokens, cut.suggestions⟩

theorem rewrite (unbroken : '\n' ∉ line) (isLine : line = left ++ right)
    (isCol : drawCol = left.length) :
    Cut { editor.withLine line with col, drawCol } above left right below := by
  have lines : editor.lines.set editor.row line = above ++ (left ++ right) :: below := by
    rw [cut.lines, cut.row, set_append_right _ _ le_rfl, Nat.sub_self, isLine]
    rfl
  refine ⟨lines, cut.row, isCol, ?_, ?_, cut.suggestions⟩
  · intro other member
    rcases mem_or_eq_of_mem_set member with old | rfl
    · exact cut.unbroken other old
    · exact unbroken
  · have written : { editor with lines := editor.lines.set editor.row line }.lines = _ := lines
    refine (inLine_rescan written cut.row).trans ?_
    show (editor.tokens.map _).set _ _ = (editor.lines.set editor.row line).map _
    rw [cut.tokens, ← isLine, ← map_set, cut.row]

end

theorem dropNextLine (cut : editor.Cut above front back (next :: below)) :
    editor.dropNextLine.Cut above front back below := by
  refine ⟨?_, cut.row, cut.drawCol, ?_, ?_, cut.suggestions⟩
  · show editor.lines.eraseIdx (editor.row + 1) = _
    rw [cut.lines, cut.row, eraseIdx_append_of_length_le (Nat.le_succ _)]
    simp
  · intro line member
    exact cut.unbroken line (mem_of_mem_eraseIdx member)
  · show (editor.tokens.eraseIdx _).map _ = (editor.lines.eraseIdx _).map _
    rw [← eraseIdx_map, ← eraseIdx_map, cut.tokens]

section

variable (cut : editor.Cut above front back below)
include cut

theorem join (same : editor.lines = up ++ line :: next :: down) (isRow : row = up.length)
    (isCol : drawCol = line.length) :
    Cut { ({ editor with row }.withLine (line ++ next)).dropNextLine with col, drawCol }
      up line next down := by
  have unbroken : '\n' ∉ line ++ next := by
    simp [cut.unbroken line (by simp [same]), cut.unbroken next (by simp [same])]
  have moved : Cut { editor with row, drawCol } up line [] (next :: down) :=
    cut.move (by simp [same]) isRow isCol
  exact (moved.rewrite unbroken rfl isCol).dropNextLine

theorem consistent (put : editor.col = editor.drawCol) : editor.Consistent := by
  refine ⟨⟨above, front, back, below, cut⟩, ?_⟩
  rw [put, cut.line_eq, cut.drawCol, length_append]
  omega

theorem buffer_eq :
    editor.buffer = .between (linesBefore above ++ front) (back ++ linesAfter below) := by
  rw [buffer, text, cut.lines, intercalate_cut, lineOffset, cut.lines, cut.row, take_left,
    total_lengths, cut.drawCol, Buffer.between]
  simp

theorem shows (put : editor.col = editor.drawCol) :
    editor.Shows (.between (linesBefore above ++ front) (back ++ linesAfter below)) :=
  ⟨cut.consistent put, cut.buffer_eq⟩

/-! ## Operations on the text around the cursor -/

theorem shows_type (noBreak : char ≠ '\n') :
    (editor.type [char]).Shows (editor.buffer.insert char) := by
  have calm := cut.withoutSuggestions
  have unbroken : '\n' ∉ front ++ [char] ++ back := by
    simp [cut.unbroken_line, noBreak.symm]
  rw [cut.buffer_eq, Buffer.insert_between, append_assoc, type]
  simp only [calm.lineWith_eq]
  exact (calm.rewrite unbroken rfl (by simp [calm.drawCol])).shows rfl

theorem shows_left : editor.left.Shows editor.buffer.left := by
  have calm := cut.withoutSuggestions
  rw [cut.buffer_eq, left]
  rcases front.eq_nil_or_concat' with rfl | ⟨init, char, rfl⟩
  · rw [if_pos (calm.isStart_iff.2 rfl)]
    rcases above.eq_nil_or_concat' with rfl | ⟨up, line, rfl⟩
    · rw [if_pos (calm.isFirst_iff.2 rfl)]
      exact (calm.move calm.lines calm.row rfl).shows rfl
    · have isRow : editor.row - 1 = up.length := by simp [cut.row]
      have lines : editor.lines = up ++ (line ++ []) :: back :: below := by simp [cut.lines]
      rw [if_neg (by simp [calm.isFirst_iff]), linesBefore_concat, append_nil, Buffer.left_between]
      refine (calm.move lines isRow ?_).shows rfl
      show (editor.lineAt (editor.row - 1)).length = _
      rw [lineAt_of lines isRow, append_nil]
  · have lines : editor.lines = above ++ (init ++ char :: back) :: below := by simp [cut.lines]
    rw [if_neg (by simp [calm.isStart_iff]), ← append_assoc, Buffer.left_between]
    exact (calm.move lines calm.row (by simp [calm.drawCol])).shows rfl

theorem shows_right : editor.right.Shows editor.buffer.right := by
  have calm := cut.withoutSuggestions
  rw [cut.buffer_eq, right]
  cases back with
  | nil =>
    rw [if_pos (calm.isEnd_iff.2 rfl)]
    cases below with
    | nil =>
      rw [if_pos (calm.isLast_iff.2 rfl), nil_append, linesAfter_nil, Buffer.right_end]
      exact (calm.move calm.lines calm.row calm.drawCol).shows rfl
    | cons line below =>
      have lines : editor.lines = (above ++ [front]) ++ ([] ++ line) :: below := by
        simp [cut.lines]
      rw [if_neg (by simp [calm.isLast_iff]), nil_append, linesAfter_cons,
        cons_append, Buffer.right_between, ← linesBefore_concat,
        ← append_nil (linesBefore (above ++ [front]))]
      have isRow : editor.row + 1 = (above ++ [front]).length := by simp [cut.row]
      exact (calm.move lines isRow rfl).shows rfl
  | cons char back =>
    have lines : editor.lines = above ++ ((front ++ [char]) ++ back) :: below := by
      simp [cut.lines]
    rw [if_neg (by simp [calm.isEnd_iff]), cons_append, Buffer.right_between, append_assoc]
    exact (calm.move lines calm.row (by simp [calm.drawCol])).shows rfl

theorem shows_home : editor.home.Shows editor.buffer.toLineStart := by
  have calm := cut.withoutSuggestions
  have lines : editor.lines = above ++ ([] ++ (front ++ back)) :: below := cut.lines
  rw [cut.buffer_eq, Buffer.toLineStart_between cut.unbroken_line.1 (getLast_linesBefore above),
    ← append_assoc, ← append_nil (linesBefore above)]
  exact (calm.move lines calm.row rfl).shows rfl

theorem shows_toEnd : editor.toEnd.Shows editor.buffer.toLineEnd := by
  have calm := cut.withoutSuggestions
  have lines : editor.lines = above ++ ((front ++ back) ++ []) :: below := by simp [cut.lines]
  rw [cut.buffer_eq, Buffer.toLineEnd_between cut.unbroken_line.2 (head_linesAfter below),
    append_assoc, ← nil_append (linesAfter below)]
  exact (calm.move lines calm.row (congrArg length cut.line_eq)).shows rfl

theorem shows_deleteBefore : editor.deleteBefore.Shows editor.buffer.deleteBefore := by
  have calm := cut.withoutSuggestions
  rw [cut.buffer_eq, deleteBefore]
  rcases front.eq_nil_or_concat' with rfl | ⟨init, char, rfl⟩
  · rw [if_pos (calm.isStart_iff.2 rfl)]
    rcases above.eq_nil_or_concat' with rfl | ⟨up, line, rfl⟩
    · rw [if_pos (calm.isFirst_iff.2 rfl)]
      exact (calm.move calm.lines calm.row calm.drawCol).shows calm.drawCol.symm
    · have isRow : editor.row - 1 = up.length := by simp [cut.row]
      have lines : editor.lines = up ++ line :: back :: below := by simp [cut.lines]
      have before : editor.withoutSuggestions.lineAt (editor.withoutSuggestions.row - 1) = line :=
        lineAt_of lines isRow
      rw [if_neg (by simp [calm.isFirst_iff]), linesBefore_concat, append_nil,
        Buffer.deleteBefore_between]
      simp only [before, calm.line_eq]
      exact (calm.join lines isRow rfl).shows rfl
  · have unbroken : '\n' ∉ init ++ back := by
      have parts := cut.unbroken_line
      simp_all
    rw [if_neg (by simp [calm.isStart_iff]), ← append_assoc, Buffer.deleteBefore_between]
    have remains : editor.line.take (editor.drawCol - 1) ++ editor.line.drop editor.drawCol =
        init ++ back := by
      rw [cut.line_eq, cut.drawCol]
      simp
    exact (calm.rewrite (remains ▸ unbroken) remains (by simp [calm.drawCol])).shows rfl

theorem shows_deleteAfter : editor.deleteAfter.Shows editor.buffer.deleteAfter := by
  have calm := cut.withoutSuggestions
  rw [cut.buffer_eq]
  show Shows (if editor.drawCol = editor.line.length then
    if editor.row + 1 = editor.lines.length then _ else _ else _) _
  cases back with
  | nil =>
    rw [if_pos (cut.isEnd_iff.2 rfl)]
    cases below with
    | nil =>
      rw [if_pos (cut.isLast_iff.2 rfl), nil_append, linesAfter_nil, Buffer.deleteAfter_end]
      exact (calm.move calm.lines calm.row calm.drawCol).shows rfl
    | cons line below =>
      have lines : editor.lines = above ++ front :: line :: below := by simp [cut.lines]
      have isNext : editor.row + 1 = (above ++ [front]).length := by simp [cut.row]
      have after : editor.lineAt (editor.row + 1) = line :=
        lineAt_of (lines.trans (append_cons _ _ _)) isNext
      have parts : editor.line ++ editor.lineAt (editor.row + 1) = front ++ line := by
        rw [cut.line_eq, after, append_nil]
      rw [if_neg (by simp [cut.isLast_iff]), nil_append, linesAfter_cons,
        cons_append, Buffer.deleteAfter_between]
      show (({ editor.withoutSuggestions with col := editor.drawCol }.withLine
        (editor.line ++ editor.lineAt (editor.row + 1))).dropNextLine).Shows _
      rw [parts]
      exact (calm.join lines calm.row calm.drawCol).shows rfl
  | cons _ back =>
    have unbroken : '\n' ∉ front ++ back := by
      have parts := cut.unbroken_line
      simp_all
    have remains : editor.line.take editor.drawCol ++ editor.line.drop (editor.drawCol + 1) =
        front ++ back := by
      rw [cut.line_eq, cut.drawCol, take_left, drop_length_add_append]
      rfl
    rw [if_neg (by simp [cut.isEnd_iff]), cons_append, Buffer.deleteAfter_between]
    exact (calm.rewrite (remains ▸ unbroken) remains cut.drawCol).shows rfl

end

/-! ## Lines, texts and completions -/

theorem insertBelow (cut : editor.Cut above front [] below) {tokens}
    (unbroken : '\n' ∉ line) (isLine : line = left ++ right) (isCol : drawCol = left.length)
    (scanned : tokens.map (map inLine) =
      (above ++ front :: line :: below).map lineTokens) : Cut { editor with
      row := editor.row + 1, lines := editor.lines.insertIdx (editor.row + 1) line
      tokens, col, drawCol } (above ++ [front]) left right below := by
  have lines : editor.lines.insertIdx (editor.row + 1) line = above ++ front :: line :: below := by
    rw [cut.lines, cut.row, insertIdx_cut, append_nil]
  refine ⟨?_, ?_, isCol, ?_, scanned.trans (congrArg _ lines.symm), cut.suggestions⟩
  · rw [lines, isLine, append_cons]
  · simp [cut.row]
  · intro other member
    rcases eq_or_mem_of_mem_insertIdx member with rfl | old
    · exact unbroken
    · exact cut.unbroken other old

variable (cut : editor.Cut above front back below)
include cut

theorem broken (indent : Nat) :
    (editor.broken indent).Cut (above ++ [front]) (List.replicate indent ' ') back below := by
  rw [Editor.broken, cut.line_eq, cut.drawCol, drop_left]
  cases back with
  | nil =>
    rw [if_pos (by simp)]
    refine cut.insertBelow (by simp) rfl (by simp) ?_
    rw [map_insertIdx, cut.tokens, map_nil, ← lineTokens_blanks indent,
      ← map_insertIdx, cut.lines, cut.row, insertIdx_cut, append_nil, append_nil]
  | cons c back =>
    have split : Cut (editor.withLine front) above front [] below :=
      cut.rewrite cut.unbroken_line.1 (append_nil _).symm cut.drawCol
    have unbroken : '\n' ∉ List.replicate indent ' ' ++ c :: back := by
      simp [cut.unbroken_line]
    rw [if_neg (by simp), take_left]
    refine split.insertBelow unbroken rfl (by simp) ?_
    have lines : (editor.withLine front).lines.insertIdx ((editor.withLine front).row + 1)
        (List.replicate indent ' ' ++ c :: back) =
        (above ++ [front]) ++ (List.replicate indent ' ' ++ c :: back) :: below := by
      rw [split.lines, split.row, insertIdx_cut, append_nil, append_cons]
    have isRow : (editor.withLine front).row + 1 = (above ++ [front]).length := by
      simp [split.row]
    refine (inLine_rescan lines isRow).trans ?_
    rw [map_insertIdx, split.tokens, map_nil, ← lineTokens_blanks 0,
      ← map_insertIdx, ← map_set, split.lines, split.row, insertIdx_cut]
    simp

theorem newLine :
    Settles (fun fault => fault = .textIndex ∧ nextIndent editor.col editor.line = none)
      (fun _ next => ∃ indent, nextIndent editor.col editor.line = some indent ∧
        next.col = indent ∧ next.Cut (above ++ [front]) (List.replicate indent ' ') back below)
      (Editor.newLine editor) := by
  have calm := cut.withoutSuggestions
  rw [newLine_eq]
  cases isNext : nextIndent editor.col editor.line with
  | none =>
    obtain ⟨atZero, empty⟩ := nextIndent_eq_none.1 isNext
    have start : editor.drawCol = 0 := by
      rw [cut.line_eq, append_eq_nil_iff] at empty
      rw [cut.isStart_iff, empty.1]
    exact ⟨⟨rfl, rfl⟩, ⟨_, _, _, _, calm⟩,
      start.trans (by simp [Editor.withoutSuggestions, atZero])⟩
  | some indent => exact ⟨indent, rfl, col_broken _ _, calm.broken indent⟩

theorem writeLine (unbroken : '\n' ∉ line) :
    Settles (fun fault => fault = .textIndex ∧ nextIndent editor.col line = none)
      (fun _ next => ∃ indent, nextIndent editor.col line = some indent ∧
        next.col = indent ∧ next.Cut (above ++ [line]) (replicate indent ' ') [] below)
      (writeLine line editor) := by
  have written : Cut { editor.withLine line with drawCol := line.length } above line [] below :=
    cut.rewrite unbroken line.append_nil.symm rfl
  have broken := written.newLine
  rw [written.line_eq, append_nil] at broken
  exact broken

theorem writeLine_pasteLines (unbroken : '\n' ∉ line)
    (continues : ∀ {next : Editor},
      next.Cut (above ++ [line]) (List.replicate next.col ' ') [] below →
      Settles (Stuck next.col lines) (Pasted (above ++ [line]) next.col lines last after below)
        (Editor.pasteLines after (lines ++ [last]) next)) :
    Settles (Stuck editor.col (line :: lines))
      (Pasted above editor.col (line :: lines) last after below)
      ((do Editor.writeLine line; Editor.pasteLines after (lines ++ [last])) editor) := by
  refine (cut.writeLine unbroken).bind ?_ ?_
  · rintro _ ⟨isFault, noIndent⟩
    exact ⟨isFault, by rw [lastIndent, noIndent]; rfl⟩
  · rintro _ next ⟨_, isNext, rfl, reached⟩
    have same : lastIndent editor.col (line :: lines) = lastIndent next.col lines := by
      rw [lastIndent, isNext]
      rfl
    unfold Stuck Pasted
    rw [same, append_cons]
    exact continues reached

omit cut in
theorem pasteLines (fresh : editor.Cut above (List.replicate editor.col ' ') [] below)
    (unbroken : ∀ line ∈ lines, '\n' ∉ line) (isLast : '\n' ∉ last) (rest : '\n' ∉ after) :
    Settles (Stuck editor.col lines) (Pasted above editor.col lines last after below)
      (Editor.pasteLines after (lines ++ [last]) editor) := by
  induction lines generalizing editor above with
  | nil =>
    cases last with
    | nil =>
      refine ⟨editor.col, rfl, ?_⟩
      rw [append_nil]
      exact fresh.move fresh.lines fresh.row fresh.drawCol
    | cons char last =>
      have whole : '\n' ∉ char :: last ++ after := by simp_all
      refine ⟨editor.col, rfl, ?_⟩
      rw [append_nil]
      exact fresh.rewrite whole rfl (Nat.zero_add _)
  | cons _ _ ih =>
    obtain ⟨now, later⟩ := forall_mem_cons.1 unbroken
    rw [cons_append, pasteLines_cons (by simp)]
    exact fresh.writeLine_pasteLines now fun reached => ih reached later

/-- The whole text is inserted, but a line end at its end takes the rest of the line. -/
theorem paste (text : List Char) : Settles (Stuck editor.col (splitLines (front ++ text)).dropLast)
      (fun _ next => ∃ indent,
        lastIndent editor.col (splitLines (front ++ text)).dropLast = some indent ∧
        next.Shows (editor.buffer.pasteText text indent)) (Editor.paste text editor) := by
  have calm := cut.withoutSuggestions
  have parts := cut.unbroken_line
  obtain ⟨lines, last, split, isText⟩ := splitLines_concat text
  have unbroken := split ▸ unbroken_splitLines text
  rw [forall_mem_append, forall_mem_singleton] at unbroken
  rw [Editor.paste, cut.buffer_eq]
  simp only [Buffer.pasteText_between parts.2 (head_linesAfter below), isText,
    getLast_broken unbroken.2]
  rw [← isText]
  cases lines with
  | nil =>
    obtain rfl : text = last := isText
    have written := calm.lineWith_eq text
    have whole : '\n' ∉ editor.withoutSuggestions.lineWith text := by
      simp [written, parts, unbroken.2]
    rw [split, splitLines_append parts.1 split]
    refine ⟨editor.col, rfl, ?_⟩
    rw [if_neg (by simp), append_assoc]
    refine (calm.rewrite whole written ?_).shows rfl
    exact (congrArg (· + text.length) calm.drawCol).trans length_append.symm
  | cons line lines =>
    obtain ⟨now, later⟩ := forall_mem_cons.1 unbroken.1
    have whole : '\n' ∉ front ++ line := by simp [parts, now]
    have pasted : Settles (Stuck editor.col ((front ++ line) :: lines))
        (Pasted above editor.col ((front ++ line) :: lines) last back below)
        (Editor.writeLines (line :: (lines ++ [last])) editor.withoutSuggestions) := by
      rw [writeLines_cons (by simp), calm.line_eq, calm.drawCol, take_left, drop_left]
      exact calm.writeLine_pasteLines whole fun fresh => fresh.pasteLines later unbroken.2 parts.2
    have before : linesBefore (above ++ (front ++ line) :: lines) =
        linesBefore above ++ front ++ linesBefore (line :: lines) := by
      simp [linesBefore]
    rw [cons_append] at split
    rw [split, splitLines_append parts.1 split, ← cons_append, dropLast_concat]
    refine pasted.bind (fun _ => id) ?_
    rintro _ _ ⟨indent, isIndent, reached⟩
    refine ⟨indent, isIndent, ?_⟩
    have shows := reached.shows rfl
    rw [before] at shows
    by_cases empty : last = []
    · simpa [empty, isText] using shows
    · simpa [empty, isText] using shows

theorem atRow (same : editor.lines = up ++ line :: down) (isRow : row = up.length) :
    (editor.atRow row).Consistent := by
  have isLine := lineAt_of same isRow
  have lines : editor.lines = up ++ (line.take editor.col ++ line.drop editor.col) :: down := by
    rw [take_append_drop, same]
  refine ⟨⟨_, _, _, _, cut.move lines isRow ?_⟩, ?_⟩
  · rw [isLine, length_take, min_comm]
  · exact min_comm _ _

end Cut

namespace Consistent

theorem withoutSuggestions (consistent : editor.Consistent) :
    editor.withoutSuggestions.Consistent := by
  obtain ⟨_, _, _, _, cut⟩ := consistent.cut
  exact ⟨⟨_, _, _, _, cut.withoutSuggestions⟩, consistent.drawn⟩

theorem up (consistent : editor.Consistent) : editor.up.Consistent := by
  obtain ⟨above, _, _, _, cut⟩ := consistent.cut
  have calm := cut.withoutSuggestions
  rw [Editor.up]
  rcases above.eq_nil_or_concat' with rfl | ⟨up, line, rfl⟩
  · rw [if_pos (calm.isFirst_iff.2 rfl)]
    exact consistent.withoutSuggestions
  · rw [if_neg (by simp [calm.isFirst_iff])]
    exact calm.atRow (calm.lines.trans (append_cons _ _ _).symm) (by simp [calm.row])

theorem down (consistent : editor.Consistent) : editor.down.Consistent := by
  obtain ⟨_, _, _, below, cut⟩ := consistent.cut
  have calm := cut.withoutSuggestions
  rw [Editor.down]
  cases below with
  | nil =>
    rw [if_pos (calm.isLast_iff.2 rfl)]
    exact consistent.withoutSuggestions
  | cons =>
    rw [if_neg (by simp [calm.isLast_iff])]
    exact calm.atRow (calm.lines.trans (append_cons _ _ _)) (by simp [calm.row])

end Consistent

end Editor

end NodeFormula
