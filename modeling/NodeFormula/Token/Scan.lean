import NodeFormula.Token
import NodeFormula.Text.Class

/-!
# Scanning formula text

`Lexeme.read` takes one lexeme off a non-empty text; `Place.skip` passes over blanks and
comments.  `tokensFrom` alternates the two until the text ends, at its first NUL character.  Lines
are counted by the skipped line ends only: a lexeme that spans lines moves the column and leaves
the line.
-/

namespace NodeFormula

open NodeFormula.Text List

/-- A lexeme: its kind, why it is no token, its characters and what follows. -/
structure Lexeme where
  kind : TokenKind
  problem : Option String
  text : List Char
  rest : List Char
deriving DecidableEq, Repr

namespace Lexeme

def continuesName (c : Char) : Bool :=
  isLetter c || isDigit c || c = '_'

def ok (kind : TokenKind) (text rest : List Char) : Lexeme := ⟨kind, none, text, rest⟩

def wrong (problem : String) (text rest : List Char) : Lexeme := ⟨.error, some problem, text, rest⟩

def nameKind (name : List Char) : TokenKind :=
  if name = "out".toList then .out
  else if name = "fn".toList then .function
  else if name = "ng".toList then .nodeGroup
  else if name = "loop".toList then .loop
  else if name = "true".toList then .true
  else if name = "false".toList then .false
  else if name = "not".toList then .not
  else if name = "or".toList then .or
  else if name = "and".toList then .and
  else .identifier

def name (first : Char) (rest : List Char) : Lexeme :=
  let text := first :: rest.takeWhile continuesName
  ok (nameKind text) text (rest.dropWhile continuesName)

/-- The places after a decimal point; `head` is the text up to the point. -/
def places (head rest : List Char) : Lexeme :=
  ok .float (head ++ rest.takeWhile isDigit) (rest.dropWhile isDigit)

/-- A number that starts with `first`; a point before a letter is a method call. -/
def number (first : Char) (rest : List Char) : Lexeme :=
  let whole := first :: rest.takeWhile isDigit
  match rest.dropWhile isDigit with
  | '.' :: after =>
    if after.head?.any isLetter then ok .int whole ('.' :: after)
    else places (whole ++ ['.']) after
  | after => ok .int whole after

/-- Split after the parenthesis that closes `depth` open ones. -/
def balanced : Nat → List Char → List Char × List Char
  | 0, rest => ([], rest)
  | _ + 1, [] => ([], [])
  | depth + 1, c :: rest =>
    let depth := if c = '(' then depth + 2 else if c = ')' then depth else depth + 1
    let (inside, after) := balanced depth rest
    (c :: inside, after)

/-- A calculation: a name, or everything inside balanced parentheses. -/
def calculation (rest : List Char) : Lexeme :=
  match rest with
  | '(' :: after =>
    let (inside, after) := balanced 1 after
    ok .calculation ('#' :: '(' :: inside) after
  | _ => ok .calculation ('#' :: rest.takeWhile continuesName) (rest.dropWhile continuesName)

/-- A text up to its closing quote; `head` is what stands before the text. -/
def quotedText (kind : TokenKind) (quote : Char) (head rest : List Char) : Lexeme :=
  let inside := rest.takeWhile (· ≠ quote)
  match rest.dropWhile (· ≠ quote) with
  | [] => wrong "Expected string to be closed." (head ++ inside) []
  | close :: after => ok kind (head ++ inside ++ [close]) after

/-- An operator that may be followed by one more character. -/
def oneOrTwo (first second : Char) (long short : TokenKind) (rest : List Char) : Lexeme :=
  match rest with
  | c :: after => if c = second then ok long [first, second] after else ok short [first] rest
  | [] => ok short [first] rest

def mark (c : Char) (rest : List Char) : Lexeme :=
  match c with
  | '(' => ok .leftParen [c] rest
  | ')' => ok .rightParen [c] rest
  | '{' => ok .leftBrace [c] rest
  | '}' => ok .rightBrace [c] rest
  | '[' => ok .leftSquareBracket [c] rest
  | ']' => ok .rightSquareBracket [c] rest
  | ';' => ok .semicolon [c] rest
  | ',' => ok .comma [c] rest
  | '+' => ok .plus [c] rest
  | '^' => ok .hat [c] rest
  | '%' => ok .percent [c] rest
  | ':' => ok .colon [c] rest
  | '/' => ok .slash [c] rest
  | '>' => oneOrTwo c '=' .greaterEqual .greater rest
  | '<' => oneOrTwo c '=' .lessEqual .less rest
  | '=' => oneOrTwo c '=' .equalEqual .equal rest
  | '*' => oneOrTwo c '*' .starStar .star rest
  | '-' => oneOrTwo c '>' .arrow .minus rest
  | '.' => if rest.head?.any isDigit then places ['.'] rest else ok .dot [c] rest
  | '!' =>
    match rest with
    | '=' :: after => ok .bangEqual [c, '='] after
    | _ => wrong "Expected \"=\" after \"!\"" [c] rest
  | '#' => calculation rest
  | '\'' => quotedText .text c [c] rest
  | '"' => quotedText .text c [c] rest
  | _ => wrong "Unrecognized token" [c] rest

/-- The lexeme that starts with `c`; the text is neither blank nor a comment there. -/
def read (c : Char) (rest : List Char) : Lexeme :=
  if 128 ≤ c.toNat then wrong "Unrecognized token" [c] rest
  else if c = '_' then
    if rest.head?.any continuesName then name c rest else ok .underscore [c] rest
  else if c = 'n' && (rest.head? = some '\'' || rest.head? = some '"') then
    match rest with
    | quote :: after => quotedText .groupName quote [c, quote] after
    | [] => name c rest
  else if isLetter c then name c rest
  else if isDigit c then number c rest
  else mark c rest

end Lexeme

structure Place where
  line : Nat
  col : Nat
  start : Nat
deriving DecidableEq, Repr

namespace Place

def origin : Place := ⟨1, 1, 0⟩

def next (place : Place) (c : Char) : Place :=
  if c = '\n' then ⟨place.line + 1, 1, place.start + 1⟩
  else ⟨place.line, place.col + 1, place.start + 1⟩

def past (place : Place) (count : Nat) : Place :=
  ⟨place.line, place.col + count, place.start + count⟩

/-- Pass over blanks and comments; `inComment` says whether the text stands inside one. -/
def skip (inComment : Bool) (place : Place) : List Char → Place × List Char
  | [] => (place, [])
  | c :: rest =>
    if inComment then
      if c = '\n' then skip false (place.next c) rest else skip true (place.next c) rest
    else if isBlank c then skip false (place.next c) rest
    else if c = '/' && rest.head? = some '/' then skip true (place.next c) rest
    else (place, c :: rest)

def token (place : Place) (lexeme : Lexeme) : Token :=
  ⟨lexeme.kind, String.ofList lexeme.text, place.line, place.col, place.start, lexeme.problem⟩

def endToken (place : Place) : Token :=
  ⟨.endOfText, "", place.line, place.col, place.start, none⟩

end Place

namespace Lexeme

variable (c : Char) (rest : List Char)

/-- The lexeme starts with a character and is cut off the front of what follows it. -/
def Tiles (lexeme : Lexeme) : Prop := ∃ inner, lexeme.text = c :: inner ∧
    rest = inner ++ lexeme.rest

theorem tiles_name : Tiles c rest (name c rest) :=
  ⟨rest.takeWhile continuesName, rfl, takeWhile_append_dropWhile.symm⟩

theorem tiles_number : Tiles c rest (number c rest) := by
  have digits : rest = rest.takeWhile isDigit ++ rest.dropWhile isDigit :=
    takeWhile_append_dropWhile.symm
  unfold number
  split
  · rename_i after point
    split
    · exact ⟨rest.takeWhile isDigit, rfl, point ▸ digits⟩
    · refine ⟨rest.takeWhile isDigit ++ '.' :: after.takeWhile isDigit, by simp [places, ok], ?_⟩
      simp only [places, ok, append_assoc, cons_append, takeWhile_append_dropWhile]
      exact point ▸ digits
  · exact ⟨rest.takeWhile isDigit, rfl, digits⟩

theorem balanced_append (depth : Nat) (text : List Char) :
    (balanced depth text).1 ++ (balanced depth text).2 = text := by
  induction text generalizing depth with
  | nil => cases depth <;> rfl
  | cons c rest ih =>
    cases depth with
    | zero => rfl
    | succ depth => exact congrArg (c :: ·) (ih _)

theorem tiles_calculation : Tiles '#' rest (calculation rest) := by
  unfold calculation
  split
  · exact ⟨_, rfl, congrArg ('(' :: ·) (balanced_append 1 _).symm⟩
  · exact ⟨_, rfl, takeWhile_append_dropWhile.symm⟩

theorem tiles_quotedText (kind : TokenKind) (quote : Char) (start : List Char) :
    Tiles c (start ++ rest) (quotedText kind quote (c :: start) rest) := by
  have tiles := takeWhile_append_dropWhile (p := (· ≠ quote)) (l := rest)
  unfold quotedText
  split
  · rename_i shape
    rw [shape, append_nil] at tiles
    exact ⟨start ++ rest.takeWhile (· ≠ quote), rfl, by rw [wrong, append_nil, tiles]⟩
  · rename_i close after shape
    rw [shape] at tiles
    refine ⟨start ++ rest.takeWhile (· ≠ quote) ++ [close], by simp [ok], ?_⟩
    rw [append_assoc, append_assoc]
    exact congrArg (start ++ ·) tiles.symm

theorem tiles_oneOrTwo (second : Char) (long short : TokenKind) :
    Tiles c rest (oneOrTwo c second long short rest) := by
  unfold oneOrTwo
  split
  · split
    · rename_i same
      exact ⟨[second], rfl, same ▸ rfl⟩
    · exact ⟨[], rfl, rfl⟩
  · exact ⟨[], rfl, rfl⟩

theorem tiles_mark : Tiles c rest (mark c rest) := by
  unfold mark
  split
  case h_14 | h_15 | h_16 | h_17 | h_18 => exact tiles_oneOrTwo _ _ _ _ _
  case h_19 =>
    split
    · exact ⟨_, rfl, takeWhile_append_dropWhile.symm⟩
    · exact ⟨[], rfl, rfl⟩
  case h_20 =>
    split
    · exact ⟨['='], rfl, rfl⟩
    · exact ⟨[], rfl, rfl⟩
  case h_21 => exact tiles_calculation rest
  case h_22 | h_23 => exact tiles_quotedText _ rest _ _ []
  all_goals exact ⟨[], rfl, rfl⟩

/-- What is read and what is left make up the text. -/
theorem tiles_read : Tiles c rest (read c rest) := by
  unfold read
  split
  · exact ⟨[], rfl, rfl⟩
  split
  · split
    · exact tiles_name c rest
    · exact ⟨[], rfl, rfl⟩
  split
  · split
    · exact tiles_quotedText c _ _ _ [_]
    · exact tiles_name c []
  split
  · exact tiles_name c rest
  split
  · exact tiles_number c rest
  · exact tiles_mark c rest

end Lexeme

theorem Place.skip_suffix (inComment : Bool) (place : Place) (text : List Char) :
    (place.skip inComment text).2 <:+ text := by
  induction text generalizing inComment place with
  | nil => exact suffix_refl _
  | cons c rest ih =>
    unfold Place.skip
    repeat' split
    all_goals first
      | exact (ih _ _).trans (suffix_cons _ _)
      | exact suffix_refl _

def tokensFrom (place : Place) (text : List Char) : List Token :=
  match _skipped : place.skip false text with
  | (here, []) => [here.endToken]
  | (here, c :: rest) =>
    let lexeme := Lexeme.read c rest
    here.token lexeme :: tokensFrom (here.past lexeme.text.length) lexeme.rest
termination_by text.length
decreasing_by
  obtain ⟨inner, _, tiles⟩ := Lexeme.tiles_read c rest
  have suffix := (Place.skip_suffix false place text).length_le
  have parts := congrArg length tiles
  rw [_skipped, length_cons] at suffix
  rw [length_append] at parts
  omega

def effectiveText (source : String) : List Char :=
  source.toList.takeWhile (· ≠ Char.ofNat 0)

/-- The tokens of a formula; the last one marks the end of the text. -/
def scan (source : String) : List Token :=
  tokensFrom .origin (effectiveText source)

end NodeFormula
