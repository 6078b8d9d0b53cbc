import NodeFormula.Syntax.Precedence
import NodeFormula.Token.Scan

/-!
# Reading formulas

The reader looks one token ahead and keeps the expression that was completed last as the operand
of what follows.  After a mistake it stays silent until the next place where a statement can
start, so one mistake makes one report.

A step either consumes a token or ends, so the fuel that `Parser.parse` gives, a multiple of the
number of tokens, is never used up.
-/

namespace NodeFormula

structure Parser where
  previous : Token
  current : Token
  /-- The tokens after the current one, up to the end of the text. -/
  upcoming : List Token
  /-- Whether a mistake was reported since the last place of recovery. -/
  panicking : Bool
  reports : List Report
  operand : Option Expr

namespace Parser

abbrev Step := StateT Parser (Except Fault)

def ofTokens (tokens : List Token) : Parser :=
  let first := tokens.headD Place.origin.endToken
  ⟨first, first, tokens.drop 1, false, [], none⟩

def ofSource (source : String) : Parser := ofTokens (scan source)

def inject (parser : Parser) : List Token → Parser
  | [] => parser
  | first :: rest =>
    { parser with current := first, upcoming := rest ++ parser.current :: parser.upcoming }

def describe (token : Token) (message : String) : String :=
  let place := "line:" ++ toString token.line ++ ":" ++ toString token.col ++ ": Error"
  let at_ := match token.kind with
    | .endOfText => " at end:"
    | .error => ""
    | _ => " at \"" ++ token.lexeme ++ "\":"
  place ++ at_ ++ " " ++ message

def reportAt (parser : Parser) (token : Token) (message : String) : Parser :=
  if parser.panicking then parser
  else
    { parser with
      panicking := true
      reports := parser.reports ++ [⟨describe token message, token⟩] }

/-- Pass over error tokens, reporting the first, to the next token of the language. -/
def advanceOver (parser : Parser) : List Token → Parser
  | [] => { parser with upcoming := [] }
  | token :: rest =>
    if token.kind = .error then
      (parser.reportAt { token with problem := none } (token.problem.getD "")).advanceOver rest
    else { parser with current := token, upcoming := rest }

/-- Take the next token; the end of the text is never passed. -/
def next (parser : Parser) : Parser :=
  { parser with previous := parser.current }.advanceOver parser.upcoming

def advance : Step Unit := modify next

def error (message : String) : Step Unit :=
  modify fun parser => parser.reportAt parser.previous message

def errorAtCurrent (message : String) : Step Unit :=
  modify fun parser => parser.reportAt parser.current message

def check (kind : TokenKind) : Step Bool := do
  return (← get).current.kind == kind

def accept (kind : TokenKind) : Step Bool := do
  if ← check kind then
    advance
    return true
  return false

def consume (kind : TokenKind) (message : String) : Step Unit := do
  if ← check kind then advance else errorAtCurrent message

def setOperand (operand : Option Expr) : Step Unit :=
  modify fun parser => { parser with operand }

/-- The text between the first `front` characters and the last one. -/
def inner (front : Nat) (lexeme : String) : String :=
  String.ofList ((lexeme.toList.drop front).dropLast)

/-- What reading does where it cannot go on: it stops, unless told otherwise. -/
class DeadEnd where
  meet : Fault → Step Unit

instance : DeadEnd := ⟨throw⟩

section Reading

variable [Evaluator]

def outcome? (token : Token) : Option (Except Calculation.Problem Calculation.Result) :=
  Evaluator.evaluate? (String.ofList (token.lexeme.toList.drop 1))

/-- The constant of a calculation, which is carried out while reading. -/
def calculation [DeadEnd] (token : Token) : Step Expr := do
  match outcome? token with
  | some (.ok (.number x)) => return .constant token (.float (.ofFloat x))
  | some (.ok (.other shown)) =>
    error "Expected result of python expression to be a number."
    return .unusable token shown
  | some (.error problem) =>
    if problem.isReported then error ("Invalid python syntax: " ++ problem.message ++ ".")
    else DeadEnd.meet (.calculation problem)
  | none => DeadEnd.meet .endless
  return .constant token (.float (.ofFloat 0.0))

/-- A target of an assignment, which is a name or the placeholder. -/
def target (message : String) : Step (List (Option Target)) := do
  if ← accept .identifier then
    let token := (← get).previous
    return [some ⟨token, token.lexeme⟩]
  if ← accept .underscore then return [none]
  errorAtCurrent message
  return []

/-- Targets up to the equal sign, which is not taken. -/
def targetList (message : String) (fuel : Nat) : Step (List (Option Target)) :=
  match fuel with
  | 0 => throw .exhausted
  | fuel + 1 => do
    if ← check .equal then return []
    let found ← target message
    if ← accept .comma then return found ++ (← targetList message fuel)
    return found

/-- The further targets of an assignment, after the first and its comma. -/
def moreTargets : Nat → Step (List (Option Target)) :=
  targetList "Expect variable name or \"_\" separated by \",\". "

variable [DeadEnd]

/-- The assignment of a value to targets that are known already. -/
def assignment (value : Step (Option Expr)) (targets : List (Option Target)) :
    Step (Option Stmt) := do
  consume .equal "Expect \"=\""
  let equal := (← get).previous
  match ← value with
  | none => return none
  | some value => return some (.assign equal targets value)

mutual

/-- Read an expression whose operators bind at least as tightly as a level. -/
def parsePrecedence (fuel level : Nat) (isAdvanced : Bool) : Step (Option Expr) :=
  match fuel with
  | 0 => throw .exhausted
  | fuel + 1 => do
    if !isAdvanced then advance
    match (← get).previous.kind.prefixRule? with
    | none =>
      error "Expect expression."
      return none
    | some rule =>
      let _ ← applyPrefix fuel rule false
      continueWith fuel level
      if (← get).operand.isNone then error "Expected expression with a value."
      return (← get).operand

def expression (fuel : Nat) : Step (Option Expr) :=
  match fuel with
  | 0 => throw .exhausted
  | fuel + 1 => parsePrecedence fuel Precedence.or false

/-- Extend the operand while the token ahead binds at least as tightly as a level. -/
def continueWith (fuel level : Nat) : Step Unit :=
  match fuel with
  | 0 => throw .exhausted
  | fuel + 1 => do
    if level ≤ (← get).current.kind.precedence then
      advance
      applyInfix fuel
      continueWith fuel level

/-- Start an expression with the token taken last; an assignment is returned. -/
def applyPrefix (fuel : Nat) (rule : PrefixRule) (canAssign : Bool) : Step (Option Stmt) :=
  match fuel with
  | 0 => throw .exhausted
  | fuel + 1 => do
    let token := (← get).previous
    match rule with
    | .int =>
      setOperand (some (.constant token (.int (Number.natOfDigits token.lexeme.toList))))
      return none
    | .float =>
      setOperand (some (.constant token (.float (.ofPoint token.lexeme.toList))))
      return none
    | .calculation =>
      let constant ← calculation token
      setOperand (some constant)
      return none
    | .placeholder =>
      setOperand (some (.constant token .placeholder))
      return none
    | .text =>
      setOperand (some (.constant token (.text (inner 1 token.lexeme))))
      return none
    | .boolean =>
      setOperand (some (.constant token (.bool (token.lexeme == "true"))))
      return none
    | .name => nameOrAssignment fuel token canAssign
    | .grouping =>
      let inside ← expression fuel
      setOperand inside
      consume .rightParen "Expect closing \")\" after expression."
      return none
    | .unary op =>
      match ← parsePrecedence fuel Precedence.unary false with
      | none => return none
      | some operand =>
        setOperand (some (.unary token op operand))
        return none
    | .vector =>
      vector fuel token
      return none
    | .groupName =>
      consume .leftParen "Expect \"(\" after node group name."
      match ← callArgs fuel with
      | none => return none
      | some (args, keywords) =>
        setOperand (some (.call token token (inner 2 token.lexeme) args keywords))
        return none

def nameOrAssignment (fuel : Nat) (token : Token) (canAssign : Bool) : Step (Option Stmt) :=
  match fuel with
  | 0 => throw .exhausted
  | fuel + 1 => do
    let isTarget ← if canAssign then
        if ← check .equal then pure true else accept .comma
      else pure false
    if isTarget then
      assignment (expression fuel) (some ⟨token, token.lexeme⟩ :: (← moreTargets fuel))
    else
      setOperand (some (.name token token.lexeme))
      return none

def vector (fuel : Nat) (brace : Token) : Step Unit :=
  match fuel with
  | 0 => throw .exhausted
  | fuel + 1 => do
    let origin := some (Expr.constant brace .placeholder)
    let (x, y, z) ←
      if ← accept .rightBrace then pure (origin, origin, origin)
      else do
        let x ← expression fuel
        let y ← if ← accept .comma then expression fuel else pure origin
        let z ← if ← accept .comma then expression fuel else pure origin
        consume .rightBrace "Expect closing \"\x7d\"."
        pure (x, y, z)
    match x, y, z with
    | some x, some y, some z => setOperand (some (.vec3 brace x y z))
    | _, _, _ => pure ()

/-- Continue the operand with the token taken last. -/
def applyInfix (fuel : Nat) : Step Unit :=
  match fuel with
  | 0 => throw .exhausted
  | fuel + 1 => do
    let token := (← get).previous
    match token.kind.infixRule? with
    | none => DeadEnd.meet .noInfixRule
    | some .call =>
      match (← get).operand with
      | none => DeadEnd.meet .calleeMissing
      | some (.name callee id) =>
        match ← callArgs fuel with
        | none => pure ()
        | some (args, keywords) => setOperand (some (.call token callee id args keywords))
      | some (.member dot receiver attr) =>
        match ← callArgs fuel with
        | none => pure ()
        | some (args, keywords) =>
          setOperand (some (.method token dot receiver attr args keywords))
      | some _ => error "Expected function name to call."
    | some .dot =>
      consume .identifier "Expect output name or function call after \".\"."
      let parser ← get
      match parser.operand with
      | none => pure ()
      | some value => setOperand (some (.member token value parser.previous.lexeme))
    | some (.binary op) =>
      let left := (← get).operand
      let right ← parsePrecedence fuel (token.kind.precedence + 1) false
      match left, right with
      | some left, some right => setOperand (some (.binary token left op right))
      | _, _ => pure ()

def callArgs (fuel : Nat) : Step (Option (List Expr × List Expr)) :=
  match fuel with
  | 0 => throw .exhausted
  | fuel + 1 => do
    let collected ← if ← check .rightParen then pure (some ([], [])) else argLoop fuel
    match collected with
    | none => return none
    | some found =>
      consume .rightParen "Expect \")\" after arguments."
      return some found

/-- Arguments as long as a comma or the opening parenthesis was taken. -/
def argLoop (fuel : Nat) : Step (Option (List Expr × List Expr)) :=
  match fuel with
  | 0 => throw .exhausted
  | fuel + 1 => do
    let isSeparated ← accept .comma
    if isSeparated || (← get).previous.kind == .leftParen then argument fuel
    else return some ([], [])

def argument (fuel : Nat) : Step (Option (List Expr × List Expr)) :=
  match fuel with
  | 0 => throw .exhausted
  | fuel + 1 => do
    if ← accept .identifier then
      let token := (← get).previous
      if ← check .equal then
        advance
        match ← expression fuel with
        | none => return none
        | some value =>
          match ← keywordLoop fuel with
          | none => return none
          | some more =>
            match ← argLoop fuel with
            | none => return none
            | some (args, keywords) =>
              return some (args, .keyword token token.lexeme value :: more ++ keywords)
      else positional fuel (← parsePrecedence fuel Precedence.or true)
    else positional fuel (← expression fuel)

def positional (fuel : Nat) (arg : Option Expr) : Step (Option (List Expr × List Expr)) :=
  match fuel with
  | 0 => throw .exhausted
  | fuel + 1 => do
    match ← argLoop fuel with
    | none => return none
    | some (args, keywords) => return some (arg.getD .missing :: args, keywords)

def keywordLoop (fuel : Nat) : Step (Option (List Expr)) :=
  match fuel with
  | 0 => throw .exhausted
  | fuel + 1 => do
    if ← accept .comma then
      consume .identifier "No positional arguments allowed after keyword argument."
      let token := (← get).previous
      consume .equal "Expect \"=\" after keyword."
      match ← expression fuel with
      | none => return none
      | some value =>
        match ← keywordLoop fuel with
        | none => return none
        | some more => return some (.keyword token token.lexeme value :: more)
    else return some []

end

def statement (fuel : Nat) : Step (Option Stmt) := do
  advance
  let stmt ← match (← get).previous.kind.prefixRule? with
    | none =>
      error "Expect expression."
      pure none
    | some rule =>
      match ← applyPrefix fuel rule true with
      | some assignment =>
        if ← accept .equal then error "Invalid assignment target."
        pure (some assignment)
      | none =>
        continueWith fuel Precedence.assignment
        if ← accept .equal then error "Invalid assignment target."
        if (← get).operand.isNone then error "Expected expression with a value."
        pure ((← get).operand.map Stmt.expr)
  let _ ← accept .semicolon
  setOperand none
  return stmt

def parseType : Step DataType := do
  consume .colon "Expected type after argument name."
  if ← accept .identifier then
    let word := (← get).previous.lexeme
    match DataType.ofWord? word with
    | some type => return type
    | none =>
      error ("Invalid data type: " ++ word ++ ".")
      return .unknown
  else
    error "Expected a data type"
    return .unknown

def parseParam (fuel : Nat) : Step Param := do
  consume .identifier "Expect argument name"
  let token := (← get).previous
  let type ← parseType
  let default ← if ← accept .equal then expression fuel else pure none
  return ⟨token, token.lexeme, type, default⟩

def out (fuel : Nat) : Step (Option Stmt) := do
  let message := "Expect variable name or \"_\" after \"out\"."
  let token := (← get).previous
  let targets ← targetList message fuel
  consume .equal "Expected \"=\". "
  if targets.isEmpty then modify (·.reportAt token message)
  match ← expression fuel with
  | none => return none
  | some value =>
    let _ ← accept .semicolon
    setOperand none
    return some (.out token targets value)

def parameters (fuel : Nat) : Step (List Param) :=
  match fuel with
  | 0 => throw .exhausted
  | fuel + 1 => do
    if ← check .rightParen then return []
    let param ← parseParam fuel
    if ← accept .comma then return param :: (← parameters fuel)
    return [param]

/-- The results of a definition: the first behind an arrow, the others behind a comma each. -/
def results (fuel : Nat) (opening : TokenKind) : Step (List Param) :=
  match fuel with
  | 0 => throw .exhausted
  | fuel + 1 => do
    if ← accept opening then
      let param ← parseParam fuel
      return param :: (← results fuel .comma)
    return []

/-- The name of a definition; a quoted name loses its quotes. -/
def definitionName (message : String) : Step (Token × String) := do
  let isNamed ← if ← accept .identifier then pure true else accept .text
  if !isNamed then error message
  let token := (← get).previous
  return (token, if token.kind = .text then inner 1 token.lexeme else token.lexeme)

/-- An integer with an optional sign; zero while a mistake is pending. -/
def parseInt : Step Int := do
  let isNegative ← accept .minus
  consume .int "Expected an integer"
  let parser ← get
  if parser.panicking then return 0
  let magnitude : Int := Number.natOfDigits parser.previous.lexeme.toList
  return if isNegative then -magnitude else magnitude

def loopCounter : Step (Option Target) := do
  if ← accept .identifier then
    let name := (← get).previous
    consume .equal "Expect \"=\" after loop variable."
    return some ⟨name, name.lexeme⟩
  return none

/-- The first and the last number of a loop, which starts at one if not said. -/
def loopBounds : Step (Int × Int) := do
  let first ← parseInt
  if ← accept .arrow then return (first, ← parseInt)
  return (1, first)

def definition (kind : DefinitionKind) (message : String)
    (parts : Step (List Param × List Stmt × List Param)) : Step (Option Stmt) := do
  let (token, name) ← definitionName message
  let (args, body, returns) ← parts
  return some (.definition kind token name args body returns)

mutual

/-- Read a definition, a loop, an output or a plain statement. -/
def declaration (fuel : Nat) : Step (Option Stmt) :=
  match fuel with
  | 0 => throw .exhausted
  | fuel + 1 => do
    if ← accept .out then out fuel
    else if ← accept .function then
      definition .function "Expected function name." (structureOf fuel)
    else if ← accept .nodeGroup then
      definition .nodeGroup "Expected node group name." (structureOf fuel)
    else if ← accept .loop then loop fuel
    else statement fuel

def structureOf (fuel : Nat) : Step (List Param × List Stmt × List Param) :=
  match fuel with
  | 0 => throw .exhausted
  | fuel + 1 => do
    consume .leftParen "Expect \"(\" after name."
    let args ← parameters fuel
    consume .rightParen "Expect closing \")\"."
    let returns ← results (fuel + 1) .arrow
    consume .leftBrace "Expect function body."
    let body ← block fuel
    consume .rightBrace "Expect closing \"\x7d\"."
    setOperand none
    return (args, body, returns)

def loop (fuel : Nat) : Step (Option Stmt) :=
  match fuel with
  | 0 => throw .exhausted
  | fuel + 1 => do
    let token := (← get).previous
    let counter ← loopCounter
    let (start, stop) ← loopBounds
    consume .leftBrace "Expect loop body."
    let body ← block fuel
    consume .rightBrace "Expect closing \"\x7d\"."
    setOperand none
    return some (.loop token counter start stop body)

def block (fuel : Nat) : Step (List Stmt) :=
  match fuel with
  | 0 => throw .exhausted
  | fuel + 1 => do
    let isOver ← if ← check .rightBrace then pure true else accept .endOfText
    if isOver then return []
    let stmt ← declaration fuel
    return stmt.getD .missing :: (← block fuel)

end

def recover (fuel : Nat) : Step Unit :=
  match fuel with
  | 0 => throw .exhausted
  | fuel + 1 => do
    let parser ← get
    if parser.previous.kind = .endOfText || parser.previous.kind = .semicolon then pure ()
    else if parser.current.kind = .out || parser.current.kind = .function
        || parser.current.kind = .nodeGroup then pure ()
    else
      advance
      recover fuel

def statements (fuel : Nat) : Step (List Stmt) :=
  match fuel with
  | 0 => throw .exhausted
  | fuel + 1 => do
    if ← accept .endOfText then return []
    let stmt ← declaration fuel
    if (← get).panicking then
      modify fun parser => { parser with panicking := false }
      recover fuel
    return stmt.toList ++ (← statements fuel)

def fuelFor (parser : Parser) : Nat := 8 * (parser.upcoming.length + 4)

/-- What reading a formula gives: its statements and the mistakes found. -/
structure Parsed where
  body : Module
  reports : List Report

def parse (parser : Parser) : Except Fault Parsed := do
  let (body, parser) ← (statements parser.fuelFor).run parser
  return ⟨body, parser.reports⟩

end Reading

end Parser

def parse [Evaluator] (source : String) : Except Fault Parser.Parsed :=
  (Parser.ofSource source).parse

end NodeFormula
