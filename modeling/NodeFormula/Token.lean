/-!
# Tokens

A formula is read as a list of tokens.  A token keeps its text and where it
starts: line and column from one, and the offset in the whole text.
-/

namespace NodeFormula

inductive TokenKind
  | leftParen | rightParen | leftSquareBracket | rightSquareBracket | leftBrace | rightBrace
  | comma | dot | semicolon | equal | minus | plus | percent | slash | hat | greater | less
  | colon | underscore
  | star | starStar | arrow | lessEqual | greaterEqual | equalEqual | bangEqual
  | identifier | int | float | calculation | text | groupName
  | out | function | nodeGroup | loop | true | false | not | or | and
  | error | endOfText
deriving DecidableEq, Repr

namespace TokenKind

def label : TokenKind → String
  | .leftParen => "LEFT_PAREN"
  | .rightParen => "RIGHT_PAREN"
  | .leftSquareBracket => "LEFT_SQUARE_BRACKET"
  | .rightSquareBracket => "RIGHT_SQUARE_BRACKET"
  | .leftBrace => "LEFT_BRACE"
  | .rightBrace => "RIGHT_BRACE"
  | .comma => "COMMA"
  | .dot => "DOT"
  | .semicolon => "SEMICOLON"
  | .equal => "EQUAL"
  | .minus => "MINUS"
  | .plus => "PLUS"
  | .percent => "PERCENT"
  | .slash => "SLASH"
  | .hat => "HAT"
  | .greater => "GREATER"
  | .less => "LESS"
  | .colon => "COLON"
  | .underscore => "UNDERSCORE"
  | .star => "STAR"
  | .starStar => "STAR_STAR"
  | .arrow => "ARROW"
  | .lessEqual => "LESS_EQUAL"
  | .greaterEqual => "GREATER_EQUAL"
  | .equalEqual => "EQUAL_EQUAL"
  | .bangEqual => "BANG_EQUAL"
  | .identifier => "IDENTIFIER"
  | .int => "INT"
  | .float => "FLOAT"
  | .calculation => "PYTHON"
  | .text => "STRING"
  | .groupName => "GROUP_NAME"
  | .out => "OUT"
  | .function => "FUNCTION"
  | .nodeGroup => "NODEGROUP"
  | .loop => "LOOP"
  | .true => "TRUE"
  | .false => "FALSE"
  | .not => "NOT"
  | .or => "OR"
  | .and => "AND"
  | .error => "ERROR"
  | .endOfText => "EOL"

def all : List TokenKind :=
  [.leftParen, .rightParen, .leftSquareBracket, .rightSquareBracket, .leftBrace, .rightBrace,
   .comma, .dot, .semicolon, .equal, .minus, .plus, .percent, .slash, .hat, .greater, .less,
   .colon, .underscore, .star, .starStar, .arrow, .lessEqual, .greaterEqual, .equalEqual,
   .bangEqual, .identifier, .int, .float, .calculation, .text, .groupName, .out, .function,
   .nodeGroup, .loop, .true, .false, .not, .or, .and, .error, .endOfText]

def ofLabel? (name : String) : Option TokenKind :=
  all.find? fun kind => kind.label == name

end TokenKind

/-- A piece of formula text. -/
structure Token where
  kind : TokenKind
  lexeme : String
  line : Nat
  col : Nat
  start : Nat
  /-- Why an error token is one. -/
  problem : Option String := none
deriving DecidableEq, Repr

namespace Token

def alike (left right : Token) : Bool :=
  left.kind == right.kind && left.lexeme == right.lexeme

def brief (token : Token) : String :=
  "[" ++ token.lexeme ++ ", " ++ token.kind.label ++ "]"

end Token

/-- A mistake in a formula, and at which token it is. -/
structure Report where
  message : String
  token : Token
deriving DecidableEq, Repr

end NodeFormula
