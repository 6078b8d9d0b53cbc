import NodeFormula.Catalog.Basic
import NodeFormula.Outline
import NodeFormula.Table

/-!
# Typed formulas

Every expression knows what it leaves on the stack, with which data types and output names, and
every call is resolved to a node of the catalog or to a function of the user.

All uses of a variable share its types, which stand in a table of slots while a formula is being
checked; the types inside the tree are filled in when checking ends.
-/

namespace NodeFormula

/-- What an expression leaves on the stack. -/
inductive StackType
  | value | socket | struct | empty
deriving DecidableEq, Repr

namespace StackType

def label : StackType → String
  | .value => "VALUE"
  | .socket => "SOCKET"
  | .struct => "STRUCT"
  | .empty => "EMPTY"

def code : StackType → Nat
  | .value => 0
  | .socket => 1
  | .struct => 2
  | .empty => 3

end StackType

/-- Shape, types and output names of an expression. -/
structure TypeInfo where
  stack : StackType
  types : List DataType
  names : List String

structure TypedVar where
  info : TypeInfo
  slot : Nat
  id : String
  /-- Whether this use has to create the variable. -/
  isFresh : Bool

/-- A parameter or result of a function, with its default. -/
structure Binding where
  name : String
  type : DataType
  value : Option Value

mutual

inductive TypedExpr
  | const (info : TypeInfo) (value : Value)
  | var (reference : TypedVar)
  | nodeCall (info : TypeInfo) (recipe : NodeRecipe) (args : List TypedExpr)
  | functionCall (info : TypeInfo) (function : TypedFunction) (args : List TypedExpr)
  | output (info : TypeInfo) (value : TypedExpr) (index : Nat)

inductive TypedFunction
  | mk (inputs outputs : List Binding) (body : List TypedStmt) (used : List Bool) (isGroup : Bool)
      (name : String)

inductive TypedStmt
  | expr (value : TypedExpr)
  | assign (targets : List (Option TypedVar)) (value : TypedExpr)
  | out (targets : List (Option Nat)) (value : TypedExpr)

end

/-- The functions of the user by name, the newest of one name first. -/
abbrev FunctionTable := List (String × List TypedFunction)

namespace TypedFunction

def inputs : TypedFunction → List Binding
  | .mk inputs _ _ _ _ _ => inputs

def outputs : TypedFunction → List Binding
  | .mk _ outputs _ _ _ _ => outputs

def body : TypedFunction → List TypedStmt
  | .mk _ _ body _ _ _ => body

/-- Which results the body sets. -/
def used : TypedFunction → List Bool
  | .mk _ _ _ used _ _ => used

def isGroup : TypedFunction → Bool
  | .mk _ _ _ _ isGroup _ => isGroup

def name : TypedFunction → String
  | .mk _ _ _ _ _ name => name

end TypedFunction

namespace TypedExpr

def info : TypedExpr → TypeInfo
  | .const info _ => info
  | .var reference => reference.info
  | .nodeCall info _ _ => info
  | .functionCall info _ _ => info
  | .output info _ _ => info

def withTypes (types : List DataType) : TypedExpr → TypedExpr
  | .const info value => .const { info with types } value
  | .var reference => .var { reference with info := { reference.info with types } }
  | .nodeCall info recipe args => .nodeCall { info with types } recipe args
  | .functionCall info function args => .functionCall { info with types } function args
  | .output info value index => .output { info with types } value index

end TypedExpr

abbrev SlotTable := List (List DataType)

namespace SlotTable

def typesAt (slots : SlotTable) (slot : Nat) : List DataType := slots.getD slot []

end SlotTable

namespace TypedVar

def settle (slots : SlotTable) (var : TypedVar) : TypedVar :=
  { var with info := { var.info with types := slots.typesAt var.slot } }

end TypedVar

namespace TypedExpr

mutual

def settle (slots : SlotTable) : TypedExpr → TypedExpr
  | .const info value => .const info value
  | .var reference => .var (reference.settle slots)
  | .nodeCall info recipe args => .nodeCall info recipe (settleAll slots args)
  | .functionCall info function args => .functionCall info function (settleAll slots args)
  | .output info value index => .output info (value.settle slots) index

def settleAll (slots : SlotTable) : List TypedExpr → List TypedExpr
  | [] => []
  | expr :: exprs => expr.settle slots :: settleAll slots exprs

end

end TypedExpr

namespace TypedStmt

/-- Fill in the types of variables.  One that holds a struct shares the types of the struct. -/
def settle (slots : SlotTable) : TypedStmt → TypedStmt
  | .expr value => .expr (value.settle slots)
  | .assign [some target] value =>
    let value := value.settle slots
    if target.info.stack = .struct then
      .assign [some (target.settle slots)] (value.withTypes (slots.typesAt target.slot))
    else .assign [some (target.settle slots)] value
  | .assign targets value =>
    .assign (targets.map (·.map (·.settle slots))) (value.settle slots)
  | .out targets value => .out targets (value.settle slots)

end TypedStmt

end NodeFormula
