import NodeFormula.Typed

/-!
# Outlines of typed formulas
-/

namespace NodeFormula

def Value.outline : Value → Outline
  | .vector components => .list (components.map fun component => .leaf component.written)
  | value => .leaf value.written

def Value.outlineOption : Option Value → Outline
  | some value => value.outline
  | none => .leaf "None"

def StackType.shown (stack : StackType) : String :=
  "<StackType." ++ stack.label ++ ": " ++ toString stack.code ++ ">"

/-- The fields that every expression has. -/
def TypeInfo.outline (info : TypeInfo) : List (String × Outline) :=
  [("stype", .leaf info.stack.shown),
   ("dtype", .list (info.types.map fun type => .leaf type.shown)),
   ("out_names", .list (info.names.map fun name => .leaf (Text.quoted name)))]

def outlineBool (value : Bool) : Outline := .leaf (Value.writtenBool value)

def Binding.outline (binding : Binding) : Outline :=
  .node "TyArg" none
    [("name", .leaf (Text.quoted binding.name)), ("dtype", .leaf binding.type.shown),
     ("value", Value.outlineOption binding.value)]

def TypedVar.outline (var : TypedVar) : Outline :=
  .node "Var" none (var.info.outline ++
    [("id", .leaf (Text.quoted var.id)), ("needs_instantion", outlineBool var.isFresh)])

def TypedVar.outlineOption : Option TypedVar → Outline
  | some var => var.outline
  | none => .leaf "None"

def outlineIndex : Option Nat → Outline
  | some index => .leaf (Number.showInt index)
  | none => .leaf "None"

mutual

def TypedExpr.outline : TypedExpr → Outline
  | .const info value => .node "Const" none (info.outline ++ [("value", value.outline)])
  | .var reference => reference.outline
  | .nodeCall info recipe args =>
    .node "NodeCall" none (info.outline ++
      [("node", .leaf recipe.written), ("args", .list (TypedExpr.outlines args))])
  | .functionCall info function args =>
    .node "FunctionCall" none (info.outline ++
      [("function", function.outline), ("args", .list (TypedExpr.outlines args))])
  | .output info value index =>
    .node "GetOutput" none (info.outline ++
      [("value", value.outline), ("index", .leaf (Number.showInt index))])

def TypedExpr.outlines : List TypedExpr → List Outline
  | [] => []
  | expr :: exprs => expr.outline :: TypedExpr.outlines exprs

def TypedFunction.outline : TypedFunction → Outline
  | .mk inputs outputs body used isGroup name =>
    .node "TyFunction" none
      [("inputs", .list (inputs.map Binding.outline)),
       ("outputs", .list (outputs.map Binding.outline)),
       ("body", .list (TypedStmt.outlines body)),
       ("used_outputs", .list (used.map outlineBool)),
       ("is_node_group", outlineBool isGroup), ("name", .leaf (Text.quoted name))]

def TypedStmt.outline : TypedStmt → Outline
  | .expr value => value.outline
  | .assign targets value =>
    .node "TyAssign" none
      [("targets", .list (targets.map TypedVar.outlineOption)), ("value", value.outline)]
  | .out targets value =>
    .node "TyOut" none [("targets", .list (targets.map outlineIndex)), ("value", value.outline)]

def TypedStmt.outlines : List TypedStmt → List Outline
  | [] => []
  | stmt :: stmts => stmt.outline :: TypedStmt.outlines stmts

end

def TypedStmt.outlineProgram (body : List TypedStmt) : Outline :=
  .node "TyRepr" none [("body", .list (TypedStmt.outlines body))]

end NodeFormula
