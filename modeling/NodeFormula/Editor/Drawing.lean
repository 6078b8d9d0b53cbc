import NodeFormula.Editor

/-!
# Drawing the editor

The text is drawn character by character in a grid, coloured by the kind of its
tokens, below a heading; then come the reports with carets under their tokens, and
the cursor.
-/

namespace NodeFormula.Editor

inductive FontFace
  | regular | italic | bold
deriving DecidableEq, Repr

namespace FontFace

def code : FontFace → Nat
  | .regular => 1
  | .italic => 2
  | .bold => 3

end FontFace

structure Color where
  red : Float
  green : Float
  blue : Float

def headingColor : Color := ⟨0.4, 0.5, 0.1⟩

def plainColor : Color := ⟨1.0, 1.0, 1.0⟩

def cursorColor : Color := ⟨0.1, 0.4, 0.7⟩

def calculationColor : Color := ⟨0.773, 0.525, 0.753⟩

def numberColor : Color := ⟨0.71, 0.808, 0.659⟩

def textColor : Color := ⟨0.808, 0.569, 0.471⟩

def keywordColor : Color := ⟨0.337, 0.612, 0.839⟩

def typeColor : Color := ⟨0.306, 0.788, 0.69⟩

def functionColor : Color := ⟨0.863, 0.863, 0.667⟩

def errorColor : Color := ⟨0.957, 0.278, 0.278⟩

structure Stroke where
  face : FontFace
  x : Scalar
  y : Scalar
  text : String
  color : Color

def heading : String := "Formula: "

/-- The sizes that the application finds for the font. -/
class Metrics where
  charWidth : Float
  charHeight : Float
  headingWidth : Float

instance fixedWidth : Metrics := ⟨8.0, 12.0 * 1.3, 8.0 * heading.length.toFloat⟩

def isKeyword : TokenKind → Bool
  | .out | .function | .nodeGroup | .loop | .true | .false | .not | .or | .and => true
  | _ => false

def style (before token after : Token) : FontFace × Color :=
  match token.kind with
  | .identifier =>
    if before.kind = .colon then
      (.regular, if (DataType.ofWord? token.lexeme).isSome then typeColor else plainColor)
    else (.regular, if after.kind = .leftParen then functionColor else plainColor)
  | .int | .float => (.regular, numberColor)
  | .calculation => (.bold, calculationColor)
  | .error => (.italic, errorColor)
  | .text => (.regular, textColor)
  | .groupName => (.regular, functionColor)
  | kind => (.regular, if isKeyword kind then keywordColor else plainColor)

open Metrics

variable [Metrics]

/-- Draw characters one after the other; the answer is also where the next one goes. -/
def drawChars (face : FontFace) (color : Color) (y : Float) :
    Float → List Char → List Stroke × Float
  | x, [] => ([], x)
  | x, char :: chars =>
    let (strokes, next) := drawChars face color y (x + charWidth) chars
    (⟨face, .ofFloat x, .ofFloat y, char.toString, color⟩ :: strokes, next)

def drawTokens (line : List Char) (y : Float) :
    Color → Float → Nat → Token → List Token → List Stroke × Color
  | color, _, _, _, [] => ([], color)
  | color, x, drawn, before, token :: tokens =>
    let blanks := (line.take token.start).drop drawn
    let (blankStrokes, x) := drawChars .regular color y x blanks
    let (face, tokenColor) := style before token (tokens.headD token)
    let (strokes, x) := drawChars face tokenColor y x token.lexeme.toList
    let color := if face = .regular then tokenColor else color
    let (rest, color) :=
      drawTokens line y color x (token.start + token.lexeme.length) token tokens
    (blankStrokes ++ strokes ++ rest, color)

def asFloat (n : Int) : Float := (Number.floatOfInt? n).getD 0.0

def drawReports (editor : Editor) : List Stroke :=
  let x := asFloat editor.pos.x + headingWidth
  let y := asFloat editor.pos.y
  let base := y - charHeight * (editor.lines.length + 1).toFloat
  editor.errors.zipIdx.flatMap fun (report, index) =>
    let col : Int := report.token.col - 1
    let row : Int := report.token.line - 1
    [⟨.regular, .ofFloat x, .ofFloat (base - index.toFloat * charHeight), report.message,
      errorColor⟩,
     ⟨.regular, .ofFloat (x + charWidth * asFloat col),
      .ofFloat (y - charHeight * asFloat row - charHeight * 0.75),
      String.ofList (List.replicate report.token.lexeme.length '^'), errorColor⟩]

def drawLines (editor : Editor) : Color → Nat → List (List Token) → List Stroke
  | _, _, [] => []
  | color, row, tokens :: rest =>
    let x := asFloat editor.pos.x + headingWidth
    let y := asFloat editor.pos.y - charHeight * row.toFloat
    let (strokes, _) := match tokens with
      | [] => ([], color)
      | first :: _ => drawTokens (editor.lineAt row) y color x 0 first tokens
    strokes ++ editor.drawReports ++ editor.drawLines errorColor (row + 1) rest

def draw (editor : Editor) : List Stroke :=
  let position := "(Line:" ++ Number.showInt (editor.row + 1) ++ " Col:" ++
    Number.showInt (editor.drawCol + 1) ++ ")"
  let help := "(Press CTRL + ENTER to confirm, ESC to cancel)    " ++ position
  let x := asFloat editor.pos.x + headingWidth
  let y := asFloat editor.pos.y
  [⟨.regular, .int editor.pos.x, .ofFloat (y + charHeight), help, headingColor⟩,
   ⟨.regular, .int editor.pos.x, .int editor.pos.y, heading, plainColor⟩] ++
  editor.drawLines plainColor 0 editor.tokens ++
  [⟨.regular, .ofFloat (x + editor.drawCol.toFloat * charWidth - charWidth / 2.0),
    .ofFloat (y - charHeight * editor.row.toFloat), "|", cursorColor⟩]

end NodeFormula.Editor
