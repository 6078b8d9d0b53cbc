import NodeFormula.Syntax

/-!
# Nodes of a formula

The nodes of a statement in reading order of the outline: a node comes before
the nodes of its fields.  A position of the text selects the first node whose
token starts there.
-/

namespace NodeFormula

inductive FormulaNode
  | stmt (content : Stmt)
  | expr (content : Expr)
  | param (content : Param)
  | unaryOp (token : Token) (op : UnaryOp)
  | binaryOp (token : Token) (op : BinaryOp)

namespace FormulaNode

def outline : FormulaNode → Outline
  | .stmt content => content.outline
  | .expr content => content.outline
  | .param content => content.outline
  | .unaryOp token op => .node op.label token []
  | .binaryOp token op => .node op.label token []

def label (node : FormulaNode) : String :=
  match node.outline with
  | .node name _ _ => name
  | _ => ""

def token? (node : FormulaNode) : Option Token :=
  match node.outline with
  | .node _ token _ => token
  | _ => none

end FormulaNode

namespace Expr

mutual

def nodes : Expr → List FormulaNode
  | .missing => []
  | whole@(.constant ..) => [.expr whole]
  | whole@(.unusable ..) => [.expr whole]
  | whole@(.name ..) => [.expr whole]
  | whole@(.vec3 _ x y z) => .expr whole :: (x.nodes ++ y.nodes ++ z.nodes)
  | whole@(.unary token op operand) => .expr whole :: .unaryOp token op :: operand.nodes
  | whole@(.binary token left op right) =>
    .expr whole :: (left.nodes ++ .binaryOp token op :: right.nodes)
  | whole@(.member _ value _) => .expr whole :: value.nodes
  | whole@(.keyword _ _ value) => .expr whole :: value.nodes
  | whole@(.call _ callee id args keywords) =>
    .expr whole :: .expr (.name callee id) :: (nodesOf args ++ nodesOf keywords)
  | whole@(.method _ dot receiver attr args keywords) =>
    .expr whole :: .expr (.member dot receiver attr) ::
      (receiver.nodes ++ nodesOf args ++ nodesOf keywords)

def nodesOf : List Expr → List FormulaNode
  | [] => []
  | expr :: exprs => expr.nodes ++ nodesOf exprs

end

end Expr

def Target.node (target : Target) : FormulaNode := .expr (.name target.token target.id)

def Param.nodes (param : Param) : List FormulaNode :=
  .param param :: ((param.default.map Expr.nodes).getD [])

namespace Stmt

mutual

def nodes : Stmt → List FormulaNode
  | .missing => []
  | .expr value => value.nodes
  | whole@(.assign _ targets value) =>
    .stmt whole :: ((targets.filterMap id).map Target.node ++ value.nodes)
  | whole@(.out _ targets value) =>
    .stmt whole :: ((targets.filterMap id).map Target.node ++ value.nodes)
  | whole@(.definition _ _ _ args body returns) =>
    .stmt whole :: (args.flatMap Param.nodes ++ nodesOf body ++ returns.flatMap Param.nodes)
  | whole@(.loop _ counter _ _ body) =>
    .stmt whole :: (counter.toList.map Target.node ++ nodesOf body)

def nodesOf : List Stmt → List FormulaNode
  | [] => []
  | stmt :: stmts => stmt.nodes ++ nodesOf stmts

end

def find? (stmt : Stmt) (line col : Nat) : Option FormulaNode :=
  stmt.nodes.find? fun node => node.token?.any fun token => token.line == line && token.col == col

end Stmt

end NodeFormula
