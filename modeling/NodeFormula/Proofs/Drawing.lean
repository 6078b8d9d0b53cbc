import Mathlib.Logic.Function.Iterate
import NodeFormula.Editor.Drawing
import NodeFormula.Proofs.Sessions

/-!
# What is drawn of a line

Drawing a line goes from token to token and fills the gaps between them from the line.  So the
characters up to the end of the last token are drawn, each in its column; what follows, blanks
and comments, is not.
-/

namespace NodeFormula

open List

variable {line text after : List Char} {tokens : List Token} {row : Nat}

namespace Tiled

theorem first (tiled : Tiled offset text (token :: tokens)) :
    ∃ gap rest, text = gap ++ (token.lexeme.toList ++ rest) ∧ token.start = offset + gap.length ∧
      Tiled (token.start + token.lexeme.toList.length) rest tokens := by
  generalize isCons : token :: tokens = all at tiled
  induction tiled with
  | done => cases isCons
  | @blank _ c _ _ _ _ ih =>
    obtain ⟨gap, rest, rfl, start, tiled⟩ := ih isCons
    exact ⟨c :: gap, rest, rfl, by rw [start, length_cons]; omega, tiled⟩
  | @comment _ body _ _ _ _ _ ih =>
    obtain ⟨gap, rest, rfl, start, tiled⟩ := ih isCons
    refine ⟨'/' :: '/' :: (body ++ gap), rest, by simp, ?_, tiled⟩
    simp only [start, length_cons, length_append]
    omega
  | lexeme _ tiled _ =>
    cases isCons
    exact ⟨[], _, rfl, rfl, tiled⟩

end Tiled

def lastEnd (start : Nat) (tokens : List Token) : Nat :=
  tokens.foldl (fun _ token => token.start + token.lexeme.toList.length) start

namespace Editor

open Metrics

section Rows

variable [Metrics]

def advance (count : Nat) (x : Float) : Float := Nat.iterate (· + charWidth) count x

theorem advance_succ (count : Nat) (x : Float) :
    advance (count + 1) x = advance count x + charWidth :=
  Function.iterate_succ_apply' ..

def Stroke.placed (stroke : Stroke) : Scalar × Scalar × String := (stroke.x, stroke.y, stroke.text)

def gridded (x y : Float) (column : Nat) (chars : List Char) : List (Scalar × Scalar × String) :=
  chars.mapIdx fun index char =>
    (.ofFloat (advance (column + index) x), .ofFloat y, char.toString)

theorem gridded_append (first second : List Char) : gridded x y column (first ++ second) =
    gridded x y column first ++ gridded x y (column + first.length) second := by
  simp only [gridded, mapIdx_append, Nat.add_assoc, Nat.add_comm first.length]

theorem placed_drawChars (face : FontFace) (color : Color) (x y : Float) (column : Nat)
    (chars : List Char) : let drawn := drawChars face color y (advance column x) chars
    drawn.1.map Stroke.placed = gridded x y column chars ∧
      drawn.2 = advance (column + chars.length) x := by
  induction chars generalizing column with
  | nil => exact ⟨rfl, rfl⟩
  | cons char chars ih =>
    obtain ⟨placed, next⟩ := ih (column + 1)
    rw [advance_succ] at placed next
    simp only [drawChars, map_cons, placed, next, gridded, mapIdx_cons, length_cons,
      Nat.add_zero, Nat.add_assoc, Nat.add_comm 1]
    exact ⟨rfl, trivial⟩

theorem placed_drawTokens (tiled : Tiled drawn text tokens)
    (isLine : line.drop drawn = text ++ after)
    (x y : Float) (color : Color) (before : Token) : ∃ shown hidden, text = shown ++ hidden ∧
      drawn + shown.length = lastEnd drawn tokens ∧ Tiled (drawn + shown.length) hidden [] ∧
      (drawTokens line y color (advance drawn x) drawn before tokens).1.map Stroke.placed =
        gridded x y drawn shown := by
  induction tokens generalizing drawn text color before with
  | nil => exact ⟨[], text, rfl, rfl, tiled, rfl⟩
  | cons token tokens ih =>
    obtain ⟨gap, rest, rfl, start, tiled⟩ := tiled.first
    have isGap : (line.take token.start).drop drawn = gap := by
      rw [drop_take, isLine, start, Nat.add_sub_cancel_left, append_assoc, take_left]
    have isRest : line.drop (token.start + token.lexeme.toList.length) = rest ++ after := by
      rw [start, ← drop_drop, ← drop_drop, isLine, append_assoc, drop_left, append_assoc, drop_left]
    obtain ⟨gapPlaced, gapNext⟩ := placed_drawChars .regular color x y drawn gap
    rw [← start] at gapNext
    simp only [drawTokens, isGap, gapNext, map_append, gapPlaced]
    generalize style before token (tokens.headD token) = styled
    obtain ⟨face, tokenColor⟩ := styled
    obtain ⟨lexemePlaced, lexemeNext⟩ :=
      placed_drawChars face tokenColor x y token.start token.lexeme.toList
    obtain ⟨shown, hidden, rfl, isEnd, hides, placed⟩ :=
      ih tiled isRest (if face = .regular then tokenColor else color) token
    have length : drawn + (gap ++ (token.lexeme.toList ++ shown)).length =
        token.start + token.lexeme.toList.length + shown.length := by
      simp only [length_append, start]
      omega
    refine ⟨gap ++ (token.lexeme.toList ++ shown), hidden, by simp, ?_⟩
    rw [length, ← String.length_toList, lexemeNext, lexemePlaced, placed, gridded_append,
      gridded_append, ← start, append_assoc]
    exact ⟨isEnd, hides, rfl⟩

def marginX (editor : Editor) : Float := asFloat editor.pos.x + headingWidth

def rowY (editor : Editor) (row : Nat) : Float :=
  asFloat editor.pos.y - charHeight * row.toFloat

theorem drawLines_cons (editor : Editor) (color : Color) (row : Nat) (tokens : List Token)
    (table : List (List Token)) : ∃ before, editor.drawLines color row (tokens :: table) =
      (drawTokens (editor.lineAt row) (editor.rowY row) color editor.marginX 0 before tokens).1 ++
        editor.drawReports ++ editor.drawLines errorColor (row + 1) table := by
  cases tokens with
  | nil => exact ⟨Place.origin.endToken, rfl⟩
  | cons first _ => exact ⟨first, rfl⟩

theorem drawLines_eq (editor : Editor) (color : Color) (row : Nat) (table : List (List Token)) :
    ∃ rows : List (List Stroke), rows.length = table.length ∧
      editor.drawLines color row table = rows.flatMap (· ++ editor.drawReports) ∧
      ∀ index < table.length, ∃ color before, rows.getD index [] =
        (drawTokens (editor.lineAt (row + index)) (editor.rowY (row + index)) color
          (advance 0 editor.marginX) 0 before (table.getD index [])).1 := by
  induction table generalizing color row with
  | nil => exact ⟨[], rfl, rfl, nofun⟩
  | cons tokens table ih =>
    obtain ⟨rows, length, drawn, each⟩ := ih errorColor (row + 1)
    obtain ⟨before, isRow⟩ := editor.drawLines_cons color row tokens table
    refine ⟨_ :: rows, congrArg (· + 1) length,
      isRow.trans (congrArg (_ ++ editor.drawReports ++ ·) drawn), ?_⟩
    intro index inside
    cases index with
    | zero => exact ⟨color, before, rfl⟩
    | succ index =>
      rw [← Nat.add_assoc, Nat.add_right_comm]
      exact each index (Nat.lt_of_succ_lt_succ inside)

/--
In every state of a session: above the rows stand the captions, behind them the bar at the cursor.
The characters of a row up to the end of its last token are drawn in their columns, each a width
behind the last, while the bar is placed by a product.  What follows is not: blanks and a comment,
and from a NUL on all.
-/
theorem session_draws_rows [Evaluator] (pos : Point) (commands : List Command)
    (allowed : ∀ command ∈ commands, command.Allowed) : let editor := session pos commands
    ∃ (captions : List Stroke) (rows : List (List Stroke)) (bar : Stroke),
      editor.draw = captions ++ rows.flatMap (· ++ editor.drawReports) ++ [bar] ∧
      captions.length = 2 ∧ rows.length = editor.lines.length ∧
      bar.placed =
        (.ofFloat (editor.marginX + editor.drawCol.toFloat * charWidth - charWidth / 2.0),
        .ofFloat (editor.rowY editor.row), "|") ∧
      ∀ row < editor.lines.length, ∃ shown hidden nul,
        editor.lineAt row = shown ++ (hidden ++ nul) ∧
        shown.length = lastEnd 0 (editor.tokens.getD row []) ∧ Tiled shown.length hidden [] ∧
        (∀ char ∈ nul.head?, char = Char.ofNat 0) ∧
        (rows.getD row []).map Stroke.placed = shown.mapIdx fun column char =>
          (.ofFloat (advance column editor.marginX), .ofFloat (editor.rowY row),
            char.toString) := by
  intro editor
  obtain ⟨above, front, back, below, cut⟩ := (consistent_session pos allowed).cut
  have count : editor.tokens.length = editor.lines.length := by
    simpa using congrArg List.length cut.tokens
  obtain ⟨rows, length, drawn, each⟩ := editor.drawLines_eq plainColor 0 editor.tokens
  refine ⟨_, rows, _, congrArg (_ ++ · ++ _) drawn, rfl, length.trans count, rfl, ?_⟩
  intro row inside
  obtain ⟨color, before, isRow⟩ := each row (count ▸ inside)
  have whole : editor.lineAt row = (editor.lineAt row).takeWhile (· ≠ Char.ofNat 0) ++
      (editor.lineAt row).dropWhile (· ≠ Char.ofNat 0) := takeWhile_append_dropWhile.symm
  obtain ⟨shown, hidden, isText, isEnd, hides, placed⟩ := placed_drawTokens (cut.tiled row)
    (drop_zero.trans whole) editor.marginX (editor.rowY row) color before
  rw [Nat.zero_add] at isRow isEnd hides
  refine ⟨shown, hidden, (editor.lineAt row).dropWhile (· ≠ Char.ofNat 0), ?_, isEnd, hides, ?_, ?_⟩
  · rw [← append_assoc, ← isText]
    exact whole
  · intro char isHead
    obtain ⟨_, shape⟩ := head?_eq_some_iff.1 isHead
    exact Lexeme.dropWhile_ne shape
  · rw [isRow, placed, gridded]
    simp only [Nat.zero_add]

end Rows

theorem session_draws_rows_comment : let editor := session ⟨0, 0⟩ [.paste "a // b".toList]
    ∃ shown hidden, editor.lineAt 0 = shown ++ hidden ∧
      shown.length = lastEnd 0 (editor.tokens.getD 0 []) := by
  obtain ⟨_, _, _, _, _, _, _, each⟩ :=
    session_draws_rows ⟨0, 0⟩ [.paste "a // b".toList] (by simp [Command.Allowed])
  obtain ⟨shown, hidden, nul, isLine, isEnd, _⟩ := each 0 (by decide +kernel)
  exact ⟨shown, hidden ++ nul, isLine, isEnd⟩

theorem comment_not_drawn :
    ((session ⟨0, 0⟩ [.paste "a // b".toList]).draw.map Stroke.text).drop 1 =
      ["Formula: ", "a", "|"] := by
  decide +kernel

end Editor
end NodeFormula
