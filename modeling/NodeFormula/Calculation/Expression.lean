import NodeFormula.Calculation.Value

/-!
# The text of a calculation

A calculation is written with the usual operators, names, calls, tuples and a
conditional.  The reader works on lexemes that remember their line, since a
problem names the line on which it was noticed.
-/

namespace NodeFormula.Calculation

open NodeFormula.Text

inductive Binary
  | bitOr | bitXor | bitAnd | shiftLeft | shiftRight | add | sub | mul | div | floorDiv | rem | pow
deriving DecidableEq, Repr

inductive Unary
  | plus | minus | invert
deriving DecidableEq, Repr

inductive Comparison
  | lt | le | gt | ge | eq | ne
deriving DecidableEq, Repr

inductive Expression
  | value (value : Value)
  | name (name : String)
  | unary (op : Unary) (operand : Expression)
  | binary (op : Binary) (left right : Expression)
  | compare (first : Expression) (rest : List (Comparison × Expression))
  | both (left right : Expression)
  | either (left right : Expression)
  | negation (operand : Expression)
  | conditional (condition positive negative : Expression)
  | tuple (items : List Expression)
  | call (function : Expression) (arguments : List Expression)

inductive Item
  | literal (value : Value)
  | name (name : String)
  | mark (text : String)
deriving Inhabited

structure Placed where
  item : Item
  line : Nat
deriving Inhabited

/-- Digits with single underscores between them; the value and what follows. -/
def digitRun (isDigit : Char → Bool) : List Char → List Char × List Char
  | '_' :: c :: rest => if isDigit c then
      let (digits, after) := digitRun isDigit rest
      (c :: digits, after) else ([], '_' :: c :: rest)
  | c :: rest => if isDigit c then
      let (digits, after) := digitRun isDigit rest
      (c :: digits, after) else ([], c :: rest)
  | [] => ([], [])

def baseDigit (c : Char) : Nat :=
  if c.isDigit then c.toNat - 48 else c.toLower.toNat - 87

def inBase (base : Nat) (digits : List Char) : Nat :=
  digits.foldl (fun value c => base * value + baseDigit c) 0

def exponentPart (text : List Char) : Option (Int × List Char) :=
  match text with
  | mark :: rest =>
    if mark = 'e' || mark = 'E' then
      let (sign, rest) := match rest with
        | '+' :: rest => (1, rest)
        | '-' :: rest => (-1, rest)
        | rest => ((1 : Int), rest)
      match digitRun Char.isDigit rest with
      | ([], _) => none
      | (digits, rest) => some (sign * inBase 10 digits, rest)
    else none
  | [] => none

def readNumber (text : List Char) : Except String (Value × List Char) :=
  let based := fun (base : Nat) (label : String) (isDigit : Char → Bool) (rest : List Char) =>
    match digitRun isDigit rest with
    | ([], _) => Except.error label
    | (digits, after) =>
      if after.head?.any fun c => c.isAlphanum || c = '_' then Except.error label
      else Except.ok (Value.int (inBase base digits), after)
  match text with
  | '0' :: 'x' :: rest | '0' :: 'X' :: rest =>
    based 16 "hexadecimal" (fun c => c.isDigit || ('a' ≤ c.toLower && c.toLower ≤ 'f')) rest
  | '0' :: 'b' :: rest | '0' :: 'B' :: rest => based 2 "binary" (fun c => c = '0' || c = '1') rest
  | '0' :: 'o' :: rest | '0' :: 'O' :: rest =>
    based 8 "octal" (fun c => '0' ≤ c && c ≤ '7') rest
  | _ =>
    let (whole, after) := digitRun Char.isDigit text
    let (hasPoint, places, after) := match after with
      | '.' :: after =>
        let (places, after) := digitRun Char.isDigit after
        (true, places, after)
      | after => (false, [], after)
    let (exponent, after) := match exponentPart after with
      | some (exponent, after) => (some exponent, after)
      | none => (none, after)
    if after.head?.any fun c => c.isAlpha || c = '_' then .error "decimal"
    else if hasPoint || exponent.isSome then
      .ok (.float (Number.floatOfDecimal (inBase 10 (whole ++ places))
        (exponent.getD 0 - places.length)), after)
    else .ok (.int (inBase 10 whole), after)

def readText (quote : Char) : List Char → Option (List Char × List Char)
  | [] => none
  | '\n' :: _ => none
  | '\\' :: c :: rest =>
    let plain := match c with
      | 'n' => ['\n']
      | 't' => ['\t']
      | 'r' => ['\r']
      | '0' => [Char.ofNat 0]
      | '\\' => ['\\']
      | '\'' => ['\'']
      | '"' => ['"']
      | '\n' => []
      | c => ['\\', c]
    (readText quote rest).map fun (inside, after) => (plain ++ inside, after)
  | c :: rest =>
    if c = quote then some ([], rest)
    else (readText quote rest).map fun (inside, after) => (c :: inside, after)

def longMarks : List String := ["**", "//", "<<", ">>", "<=", ">=", "==", "!="]

/--
The lexemes of a text.  `open_` holds the open brackets with their lines, the innermost first; the
answer has those still open at the end.
-/
def itemsFrom (fuel line : Nat) (opened : List (Char × Nat)) (text : List Char) :
    Except Problem (List Placed × List (Char × Nat) × Nat) :=
  match fuel with
  | 0 => .ok ([], opened, line)
  | fuel + 1 =>
    match text with
    | [] => .ok ([], opened, line)
    | c :: rest =>
      let put := fun (item : Item) (opened : List (Char × Nat)) (rest : List Char) => do
        let (items, opened, last) ← itemsFrom fuel line opened rest
        .ok (⟨item, line⟩ :: items, opened, last)
      if c = '\n' then itemsFrom fuel (line + 1) opened rest
      else if c = ' ' || c = '\t' || c = '\r' || c = Char.ofNat 12 then
        itemsFrom fuel line opened rest
      else if c = '#' then itemsFrom fuel line opened (rest.dropWhile (· ≠ '\n'))
      else if c.isDigit || (c = '.' && rest.head?.any Char.isDigit) then
        match readNumber text with
        | .ok (value, after) => put (.literal value) opened after
        | .error base => .error (.invalidLiteral base line)
      else if c = '\'' || c = '"' then
        match readText c rest with
        | some (inside, after) => put (.literal (.text (String.ofList inside))) opened after
        | none => .error (.unterminatedText line)
      else if isLetter c || c = '_' then
        let continues := fun c : Char => isLetter c || isDigit c || c = '_'
        put (.name (String.ofList (c :: rest.takeWhile continues))) opened
          (rest.dropWhile continues)
      else if c = '(' || c = '[' || c = '{' then put (.mark c.toString) ((c, line) :: opened) rest
      else if c = ')' || c = ']' || c = '}' then
        match opened with
        | [] => .error (.unmatched c line)
        | (opening, _) :: outer =>
          let fits := (opening = '(' && c = ')') || (opening = '[' && c = ']')
            || (opening = '{' && c = '}')
          if fits then put (.mark c.toString) outer rest
          else .error (.mismatched c opening line)
      else
        match rest with
        | next :: after =>
          if longMarks.contains (String.ofList [c, next]) then
            put (.mark (String.ofList [c, next])) opened after
          else put (.mark c.toString) opened rest
        | [] => put (.mark c.toString) opened rest

def reservedWords : List String :=
  ["and", "or", "not", "if", "else", "in", "is", "lambda", "for", "as", "assert", "async", "await",
   "break", "class", "continue", "def", "del", "elif", "except", "finally", "from", "global",
   "import", "nonlocal", "pass", "raise", "return", "try", "while", "with", "yield"]

/-- What was read and what is left, or the line of a problem. -/
abbrev Reading := Except (Option Nat) (Expression × List Placed)

/-- Fail at the next lexeme: the failure names its line, if there is one. -/
def offended {α : Type} (items : List Placed) : Except (Option Nat) α :=
  .error (items.head?.map (·.line))

def nextIs (text : String) (items : List Placed) : Bool :=
  match items with
  | ⟨.mark mark, _⟩ :: _ => mark == text
  | ⟨.name name, _⟩ :: _ => name == text
  | _ => false

/-- The binary operator of a mark with its level; higher levels bind tighter. -/
def binaryOf? (items : List Placed) : Option (Binary × Nat) :=
  match items with
  | ⟨.mark mark, _⟩ :: _ =>
    match mark with
    | "|" => some (.bitOr, 1)
    | "^" => some (.bitXor, 2)
    | "&" => some (.bitAnd, 3)
    | "<<" => some (.shiftLeft, 4)
    | ">>" => some (.shiftRight, 4)
    | "+" => some (.add, 5)
    | "-" => some (.sub, 5)
    | "*" => some (.mul, 6)
    | "/" => some (.div, 6)
    | "//" => some (.floorDiv, 6)
    | "%" => some (.rem, 6)
    | _ => none
  | _ => none

def comparisonOf? (items : List Placed) : Option Comparison :=
  match items with
  | ⟨.mark mark, _⟩ :: _ =>
    match mark with
    | "<" => some .lt
    | "<=" => some .le
    | ">" => some .gt
    | ">=" => some .ge
    | "==" => some .eq
    | "!=" => some .ne
    | _ => none
  | _ => none

mutual

def readExpression (fuel : Nat) (items : List Placed) : Reading :=
  match fuel with
  | 0 => offended items
  | fuel + 1 => do
    let (positive, items) ← readDisjunction fuel items
    if nextIs "if" items then
      let (condition, items) ← readDisjunction fuel (items.drop 1)
      if nextIs "else" items then
        let (negative, items) ← readExpression fuel (items.drop 1)
        .ok (.conditional condition positive negative, items)
      else offended items
    else .ok (positive, items)

def readDisjunction (fuel : Nat) (items : List Placed) : Reading :=
  match fuel with
  | 0 => offended items
  | fuel + 1 => do
    let (left, items) ← readConjunction fuel items
    if nextIs "or" items then
      let (right, items) ← readDisjunction fuel (items.drop 1)
      .ok (.either left right, items)
    else .ok (left, items)

def readConjunction (fuel : Nat) (items : List Placed) : Reading :=
  match fuel with
  | 0 => offended items
  | fuel + 1 => do
    let (left, items) ← readNegation fuel items
    if nextIs "and" items then
      let (right, items) ← readConjunction fuel (items.drop 1)
      .ok (.both left right, items)
    else .ok (left, items)

def readNegation (fuel : Nat) (items : List Placed) : Reading :=
  match fuel with
  | 0 => offended items
  | fuel + 1 =>
    if nextIs "not" items then do
      let (operand, items) ← readNegation fuel (items.drop 1)
      .ok (.negation operand, items)
    else do
      let (first, items) ← readOperation fuel 1 items
      let (rest, items) ← readComparisons fuel items
      .ok (if rest.isEmpty then first else .compare first rest, items)

def readComparisons (fuel : Nat) (items : List Placed) :
    Except (Option Nat) (List (Comparison × Expression) × List Placed) :=
  match fuel with
  | 0 => offended items
  | fuel + 1 =>
    match comparisonOf? items with
    | none => .ok ([], items)
    | some op => do
      let (operand, items) ← readOperation fuel 1 (items.drop 1)
      let (rest, items) ← readComparisons fuel items
      .ok ((op, operand) :: rest, items)

def readOperation (fuel level : Nat) (items : List Placed) : Reading :=
  match fuel with
  | 0 => offended items
  | fuel + 1 => do
    let (left, items) ← readFactor fuel items
    readOperators fuel level left items

def readOperators (fuel level : Nat) (left : Expression) (items : List Placed) : Reading :=
  match fuel with
  | 0 => offended items
  | fuel + 1 =>
    match binaryOf? items with
    | some (op, opLevel) =>
      if level ≤ opLevel then do
        let (right, items) ← readOperation fuel (opLevel + 1) (items.drop 1)
        readOperators fuel level (.binary op left right) items
      else .ok (left, items)
    | none => .ok (left, items)

/-- A signed operand or a power; a power binds tighter than a sign on its left. -/
def readFactor (fuel : Nat) (items : List Placed) : Reading :=
  match fuel with
  | 0 => offended items
  | fuel + 1 =>
    let signed := fun (op : Unary) => do
      let (operand, items) ← readFactor fuel (items.drop 1)
      .ok (Expression.unary op operand, items)
    if nextIs "+" items then signed .plus
    else if nextIs "-" items then signed .minus
    else if nextIs "~" items then signed .invert
    else do
      let (base, items) ← readAtom fuel items
      let (base, items) ← readCalls fuel base items
      if nextIs "**" items then
        let (exponent, items) ← readFactor fuel (items.drop 1)
        .ok (.binary .pow base exponent, items)
      else .ok (base, items)

def readCalls (fuel : Nat) (function : Expression) (items : List Placed) : Reading :=
  match fuel with
  | 0 => offended items
  | fuel + 1 =>
    if nextIs "(" items then do
      let (arguments, _, items) ← readItems fuel (items.drop 1)
      readCalls fuel (.call function arguments) items
    else .ok (function, items)

/-- Expressions up to a closing parenthesis, and whether a comma was read. -/
def readItems (fuel : Nat) (items : List Placed) :
    Except (Option Nat) (List Expression × Bool × List Placed) :=
  match fuel with
  | 0 => offended items
  | fuel + 1 =>
    if nextIs ")" items then .ok ([], false, items.drop 1)
    else do
      let (first, items) ← readExpression fuel items
      if nextIs "," items then
        let (rest, _, items) ← readItems fuel (items.drop 1)
        .ok (first :: rest, true, items)
      else if nextIs ")" items then .ok ([first], false, items.drop 1)
      else offended items

def readAtom (fuel : Nat) (items : List Placed) : Reading :=
  match fuel with
  | 0 => offended items
  | fuel + 1 =>
    match items with
    | ⟨.literal (.text first), _⟩ :: ⟨.literal (.text second), line⟩ :: rest =>
      readAtom fuel (⟨.literal (.text (first ++ second)), line⟩ :: rest)
    | ⟨.literal value, _⟩ :: rest => .ok (.value value, rest)
    | ⟨.name "True", _⟩ :: rest => .ok (.value (.bool true), rest)
    | ⟨.name "False", _⟩ :: rest => .ok (.value (.bool false), rest)
    | ⟨.name "None", _⟩ :: rest => .ok (.value .nothing, rest)
    | ⟨.name name, _⟩ :: rest =>
      if reservedWords.contains name then offended items else .ok (.name name, rest)
    | ⟨.mark "(", _⟩ :: rest => do
      let (inside, isTuple, after) ← readItems fuel rest
      match inside, isTuple with
      | [item], false => .ok (item, after)
      | inside, _ => .ok (.tuple inside, after)
    | _ => offended items

end

/-- Expressions separated by commas make a tuple, also without parentheses. -/
def readWhole (fuel : Nat) (items : List Placed) : Reading := do
  let (first, items) ← readExpression fuel items
  if nextIs "," items then
    let (rest, _, items) ← readItems fuel
      (items.drop 1 ++ [⟨.mark ")", (items.getLastD default).line⟩])
    .ok (.tuple (first :: rest), items)
  else .ok (first, items)

def Expression.read (source : String) : Except Problem Expression :=
  let text := source.toList.dropWhile fun c => c = ' ' || c = '\t'
  match itemsFrom (text.length + 1) 1 [] text with
  | .error problem => .error problem
  | .ok ([], [], _) => .error (.invalid 0)
  | .ok (items, opened, last) =>
    let blame := fun (line : Option Nat) =>
      match line, opened with
      | none, (bracket, at_) :: _ => Problem.neverClosed bracket at_
      | none, [] => .invalid last
      | some line, (bracket, at_) :: _ =>
        if at_ < line then .neverClosed bracket at_ else .invalid line
      | some line, [] => .invalid line
    match readWhole (20 * items.length + 20) items with
    | .ok (expression, []) =>
      match opened with
      | [] => .ok expression
      | _ => .error (blame none)
    | .ok (_, next :: _) => .error (blame (some next.line))
    | .error line => .error (blame line)

end NodeFormula.Calculation
