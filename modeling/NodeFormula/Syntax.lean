import NodeFormula.Value
import NodeFormula.Fault
import NodeFormula.Outline

/-!
# Formulas

The tree of a formula keeps the token that each node was read from.  Reading
continues after a mistake, so a body or an argument list may hold a `missing`
entry where nothing could be read; a formula without mistakes has none.
-/

namespace NodeFormula

inductive UnaryOp
  | not | negate
deriving DecidableEq, Repr

inductive BinaryOp
  | and | or | add | div | mod | mult | pow | sub | eq | gt | gtE | lt | ltE | notEq
deriving DecidableEq, Repr

/-- A constant as it is written; the placeholder stands for what is left out. -/
inductive Literal
  | int (value : Nat)
  | float (value : Number.Double)
  | bool (value : Bool)
  | text (value : String)
  | placeholder
deriving DecidableEq, Repr

namespace Literal

def value : Literal → Value
  | .int value => .int value
  | .float value => .float value
  | .bool value => .bool value
  | .text value => .text value
  | .placeholder => .int 0

def type : Literal → DataType
  | .int _ => .int
  | .float _ => .float
  | .bool _ => .bool
  | .text _ => .string
  | .placeholder => .default

end Literal

inductive Expr
  | constant (token : Token) (literal : Literal)
  /-- A calculation whose result is no number; `shown` is the result as written. -/
  | unusable (token : Token) (shown : String)
  | vec3 (token : Token) (x y z : Expr)
  | name (token : Token) (id : String)
  | unary (token : Token) (op : UnaryOp) (operand : Expr)
  | binary (token : Token) (left : Expr) (op : BinaryOp) (right : Expr)
  | member (token : Token) (value : Expr) (attr : String)
  /-- A named argument; it occurs only among the keywords of a call. -/
  | keyword (token : Token) (arg : String) (value : Expr)
  | call (token callee : Token) (id : String) (args keywords : List Expr)
  | method (token dot : Token) (receiver : Expr) (attr : String) (args keywords : List Expr)
  | missing

structure Target where
  token : Token
  id : String

/-- A parameter or a result of a function. -/
structure Param where
  token : Token
  name : String
  type : DataType
  default : Option Expr

inductive DefinitionKind
  | function | nodeGroup
deriving DecidableEq, Repr

inductive Stmt
  | expr (value : Expr)
  | assign (token : Token) (targets : List (Option Target)) (value : Expr)
  | out (token : Token) (targets : List (Option Target)) (value : Expr)
  | definition (kind : DefinitionKind) (token : Token) (name : String) (args : List Param)
      (body : List Stmt) (returns : List Param)
  | loop (token : Token) (counter : Option Target) (start stop : Int) (body : List Stmt)
  | missing

abbrev Module := List Stmt

namespace UnaryOp

def label : UnaryOp → String
  | .not => "Not"
  | .negate => "USub"

end UnaryOp

namespace BinaryOp

def label : BinaryOp → String
  | .and => "And"
  | .or => "Or"
  | .add => "Add"
  | .div => "Div"
  | .mod => "Mod"
  | .mult => "Mult"
  | .pow => "Pow"
  | .sub => "Sub"
  | .eq => "Eq"
  | .gt => "Gt"
  | .gtE => "GtE"
  | .lt => "Lt"
  | .ltE => "LtE"
  | .notEq => "NotEq"

end BinaryOp

namespace Outline

def quoted (text : String) : Outline := .leaf (Text.quoted text)

def absent : Outline := .leaf "None"

end Outline

namespace Expr

mutual

def outline : Expr → Outline
  | .constant token literal =>
    .node "Constant" token
      [("value", .leaf literal.value.written), ("type", .leaf literal.type.shown)]
  | .unusable token shown =>
    .node "Constant" token [("value", .leaf shown), ("type", .leaf DataType.float.shown)]
  | .vec3 token x y z =>
    .node "Vec3" token [("x", x.outline), ("y", y.outline), ("z", z.outline)]
  | .name token id => .node "Name" token [("id", .quoted id)]
  | .unary token op operand =>
    .node "UnaryOp" token [("op", .node op.label token []), ("operand", operand.outline)]
  | .binary token left op right =>
    .node "BinOp" token
      [("left", left.outline), ("op", .node op.label token []), ("right", right.outline)]
  | .member token value attr =>
    .node "Attribute" token [("value", value.outline), ("attr", .quoted attr)]
  | .keyword token arg value =>
    .node "Keyword" token [("arg", .quoted arg), ("value", value.outline)]
  | .call token callee id args keywords =>
    .node "Call" token
      [("func", .node "Name" callee [("id", .quoted id)]), ("pos_args", .list (outlines args)),
       ("keyword_args", .list (outlines keywords))]
  | .method token dot receiver attr args keywords =>
    .node "Call" token
      [("func", .node "Attribute" dot [("value", receiver.outline), ("attr", .quoted attr)]),
       ("pos_args", .list (outlines args)), ("keyword_args", .list (outlines keywords))]
  | .missing => .absent

def outlines : List Expr → List Outline
  | [] => []
  | expr :: exprs => expr.outline :: outlines exprs

end

end Expr

def Target.outline : Option Target → Outline
  | some target => .node "Name" target.token [("id", .quoted target.id)]
  | none => .absent

def Param.outline (param : Param) : Outline :=
  .node "arg" param.token
    [("arg", .quoted param.name), ("type", .leaf param.type.shown),
     ("default", (param.default.map Expr.outline).getD .absent)]

namespace Stmt

def definitionLabel : DefinitionKind → String
  | .function => "FunctionDef"
  | .nodeGroup => "NodegroupDef"

mutual

def outline : Stmt → Outline
  | .expr value => value.outline
  | .assign token targets value =>
    .node "Assign" token [("targets", .list (targets.map Target.outline)), ("value", value.outline)]
  | .out token targets value =>
    .node "Out" token [("targets", .list (targets.map Target.outline)), ("value", value.outline)]
  | .definition kind token name args body returns =>
    .node (definitionLabel kind) token
      [("name", .quoted name), ("args", .list (args.map Param.outline)),
       ("body", .list (outlines body)), ("returns", .list (returns.map Param.outline))]
  | .loop token counter start stop body =>
    .node "Loop" token
      [("var", Target.outline counter), ("start", .leaf (Number.showInt start)),
       ("end", .leaf (Number.showInt stop)), ("body", .list (outlines body))]
  | .missing => .absent

def outlines : List Stmt → List Outline
  | [] => []
  | stmt :: stmts => stmt.outline :: outlines stmts

end

end Stmt

/-- An outline starts from a statement; a formula as a whole has none. -/
def Module.noOutline : Fault := .unsuitable "expected node_type, got 'Module'"

def Module.flat (body : Module) : String :=
  (Outline.node "Module" none [("body", .list (Stmt.outlines body))]).flat

end NodeFormula
