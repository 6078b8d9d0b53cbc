import NodeFormula.Syntax

/-!
# Precedence

Which tokens start an expression, which continue one, and how tightly the
latter bind.  `not` has a level of its own although nothing continues an
expression with it.
-/

namespace NodeFormula

namespace Precedence

abbrev none : Nat := 0
abbrev assignment : Nat := 1
abbrev or : Nat := 2
abbrev and : Nat := 3
abbrev not : Nat := 4
abbrev comparison : Nat := 5
abbrev term : Nat := 6
abbrev factor : Nat := 7
abbrev unary : Nat := 8
abbrev exponent : Nat := 9
abbrev member : Nat := 10
abbrev call : Nat := 11

end Precedence

/-- How a token starts an expression. -/
inductive PrefixRule
  | grouping | vector | unary (op : UnaryOp) | placeholder | name | int | float | calculation
  | text | groupName | boolean
deriving DecidableEq, Repr

/-- How a token continues an expression. -/
inductive InfixRule
  | call | dot | binary (op : BinaryOp)
deriving DecidableEq, Repr

namespace TokenKind

def prefixRule? : TokenKind → Option PrefixRule
  | .leftParen => some .grouping
  | .leftBrace => some .vector
  | .minus => some (.unary .negate)
  | .not => some (.unary .not)
  | .underscore => some .placeholder
  | .identifier => some .name
  | .int => some .int
  | .float => some .float
  | .calculation => some .calculation
  | .text => some .text
  | .groupName => some .groupName
  | .true => some .boolean
  | .false => some .boolean
  | _ => none

def infixRule? : TokenKind → Option InfixRule
  | .leftParen => some .call
  | .dot => some .dot
  | .minus => some (.binary .sub)
  | .plus => some (.binary .add)
  | .percent => some (.binary .mod)
  | .slash => some (.binary .div)
  | .hat => some (.binary .pow)
  | .greater => some (.binary .gt)
  | .less => some (.binary .lt)
  | .star => some (.binary .mult)
  | .starStar => some (.binary .pow)
  | .lessEqual => some (.binary .ltE)
  | .greaterEqual => some (.binary .gtE)
  | .equalEqual => some (.binary .eq)
  | .bangEqual => some (.binary .notEq)
  | .or => some (.binary .or)
  | .and => some (.binary .and)
  | _ => none

def precedence : TokenKind → Nat
  | .leftParen => Precedence.call
  | .dot => Precedence.member
  | .minus | .plus => Precedence.term
  | .percent | .slash | .star => Precedence.factor
  | .hat | .starStar => Precedence.exponent
  | .greater | .less | .lessEqual | .greaterEqual | .equalEqual | .bangEqual =>
    Precedence.comparison
  | .not => Precedence.not
  | .or => Precedence.or
  | .and => Precedence.and
  | _ => Precedence.none

end TokenKind

end NodeFormula
