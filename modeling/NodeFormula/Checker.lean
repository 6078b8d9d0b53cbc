import NodeFormula.Resolution
import NodeFormula.Syntax.Parser

/-!
# Checking formulas

The checker turns a formula into a typed one.  A mistake of the user is reported at a token and
the formula is rejected; a fault stops checking without a report.  Passing an argument fixes its
type: a constant is converted, and a variable takes the type of the parameter, for all its uses.
-/

namespace NodeFormula

structure Checker where
  kind : TreeKind
  functions : FunctionTable
  /-- The variables in scope, in the order of their first assignment. -/
  vars : List (String × TypedVar)
  slots : SlotTable
  outputs : List Binding
  /-- Which of those results have been set. -/
  used : List Bool
  body : List TypedStmt
  reports : List Report

/-- Why checking ends before the end of a formula. -/
inductive Refusal
  /-- The formula is wrong; usually a report says why. -/
  | rejected
  | fault (fault : Fault)

namespace Checker

def new (kind : TreeKind) (functions : FunctionTable) : Checker :=
  ⟨kind, functions, [], [], [], [], [], []⟩

abbrev Check := EStateM Refusal Checker

def reporting (checker : Checker) (message : String) (token : Token) : Checker :=
  { checker with reports := checker.reports ++ [⟨message, token⟩] }

def reject {α : Type} (message : String) (token : Token) : Check α := do
  modify (·.reporting message token)
  throw .rejected

def stop {α : Type} (fault : Fault) : Check α := throw (.fault fault)

def orStop {α : Type} : Except Fault α → Check α
  | .ok value => pure value
  | .error fault => stop fault

/-- The types of an expression; those of a variable may still change. -/
def currentTypes (checker : Checker) : TypedExpr → List DataType
  | .var var => checker.slots.typesAt var.slot
  | expr => expr.info.types

def typesOf (expr : TypedExpr) : Check (List DataType) := return (← get).currentTypes expr

def firstType (expr : TypedExpr) : Check DataType := do
  match ← typesOf expr with
  | type :: _ => return type
  | [] => stop .listIndex

def newSlot (types : List DataType) : Check Nat := do
  let slot := (← get).slots.length
  modify fun checker => { checker with slots := checker.slots ++ [types] }
  return slot

def replaceFirst (type : DataType) : List DataType → List DataType
  | [] => []
  | _ :: rest => type :: rest

def bind (name : String) (var : TypedVar) : Check Unit :=
  modify fun checker => { checker with vars := Table.insert name var checker.vars }

def passArg (arg : TypedExpr) (type : DataType) : Check TypedExpr := do
  match arg with
  | .const info value =>
    let source ← firstType arg
    let value ← orStop (convert value source type)
    return .const { info with types := replaceFirst type info.types } value
  | .var var =>
    modify fun checker =>
      { checker with slots := checker.slots.modify var.slot (replaceFirst type) }
    return arg
  | arg => return arg.withTypes (replaceFirst type arg.info.types)

def passArgs : List TypedExpr → List DataType → Check (List TypedExpr)
  | arg :: args, type :: types => do
    let arg ← passArg arg type
    return arg :: (← passArgs args types)
  | args, _ => return args

def firstTypes : List TypedExpr → Check (List DataType)
  | [] => return []
  | arg :: args => do
    let type ← firstType arg
    return type :: (← firstTypes args)

def componentNames : DataType → Option (List String)
  | .vec3 => some ["x", "y", "z"]
  | .rgba => some ["r", "g", "b", "a"]
  | _ => none

def resultInfo (results : List (String × DataType)) : TypeInfo :=
  let types := results.map (·.2)
  let names := results.map (·.1)
  match types with
  | [] => ⟨.empty, types, names⟩
  | [type] => ⟨.socket, types, (componentNames type).getD names⟩
  | _ => ⟨.struct, types, names⟩

def resolveAmong (candidates : List Callable) (name : String) (args : List TypedExpr) :
    Check (Except String (Callable × List TypedExpr)) := do
  let types ← firstTypes args
  match TreeKind.choose? candidates types with
  | none => return .error (TreeKind.noInstance name types)
  | some callable =>
    let args ← passArgs args callable.inputTypes
    return .ok (callable, args)

/-- Resolve a call and pass its arguments, or say why nothing takes them. -/
def resolve (name : String) (args : List TypedExpr) :
    Check (Except String (Callable × List TypedExpr)) := do
  let checker ← get
  match checker.kind.candidates checker.functions name with
  | [] => return .error (checker.kind.unknownFunction checker.functions name)
  | candidates => resolveAmong candidates name args

def applied (callable : Callable) (args : List TypedExpr) : TypedExpr :=
  match callable with
  | .node recipe => .nodeCall (resultInfo callable.results) recipe args
  | .function function => .functionCall (resultInfo callable.results) function args

def call (name : String) (args : List TypedExpr) (token : Token) : Check TypedExpr := do
  match ← resolve name args with
  | .error message => reject message token
  | .ok (callable, args) => return applied callable args

def operatorName : BinaryOp → String
  | .and => "_and"
  | .or => "_or"
  | .add => "add"
  | .div => "div"
  | .mod => "mod"
  | .mult => "mul"
  | .pow => "pow"
  | .sub => "sub"
  | .eq => "equal"
  | .gt => "greater_than"
  | .gtE => "greater_equal"
  | .lt => "less_than"
  | .ltE => "less_equal"
  | .notEq => "not_equal"

def isEmpty (expr : TypedExpr) : Bool := expr.info.stack == .empty

def constant (token : Token) (value : Value) (type : DataType) : Check TypedExpr := do
  match ← orStop ((← get).kind.coerce value type) with
  | .ok (value, type) => return .const ⟨.value, [type], []⟩ value
  | .error message => reject message token

/-- A use of a variable; a name that was never assigned becomes one of unknown type. -/
def useName (id : String) : Check TypedExpr := do
  match (← get).vars.lookup id with
  | none =>
    let slot ← newSlot [.unknown]
    let var : TypedVar := ⟨⟨.socket, [.unknown], []⟩, slot, id, true⟩
    bind id var
    return .var var
  | some var =>
    if var.isFresh then
      let var := { var with isFresh := false }
      bind id var
      return .var var
    else return .var var

def component (value : Value) (type : DataType) : Check Scalar := do
  match ← orStop (convert value type .float) with
  | .float x => return .float x
  | .int n => return .int n
  | _ => return .int 0

def negated? : Value → Option Value
  | .int n => some (.int (-n))
  | .float x => some (.float x.negate)
  | .bool b => some (.int (if b then -1 else 0))
  | _ => none

def minusOne : TypedExpr := .const ⟨.value, [.int], []⟩ (.int (-1))

/-- Negate an expression: a number directly, anything else by a multiplication. -/
def negate (expr : TypedExpr) (token : Token) : Check TypedExpr := do
  let times := call "mul" [minusOne, expr] token
  match expr with
  | .const info value =>
    match info.types, negated? value with
    | [.float], some value | [.int], some value => return .const info value
    | _, _ => times
  | _ => times

def unknownOutput (attr : String) (names : List String) : String :=
  "\"" ++ attr ++ "\" does not match one of the output names: " ++
    Text.bracketed (names.map Text.quoted)

/-- The output of a value that has a given name. -/
def outputAt (attr : String) (value : TypedExpr) : Check TypedExpr := do
  let index := value.info.names.idxOf attr
  match (← typesOf value)[index]? with
  | none => stop .listIndex
  | some type => return .output ⟨.socket, [type], (componentNames type).getD []⟩ value index

def readOutput (expr : TypedExpr) (attr : String) (token : Token) : Check TypedExpr := do
  if isEmpty expr then reject "Expected some value to retrieve attribute from." token
  if !expr.info.names.contains attr then reject (unknownOutput attr expr.info.names) token
  if expr.info.stack = .socket then
    match ← firstType expr with
    | .vec3 => outputAt attr (← call "sep_xyz" [expr] token)
    | .rgba => stop (.notSupported "")
    | _ => outputAt attr expr
  else outputAt attr expr

/-- What is left to do for an expression once its operands are checked. -/
def finish : Expr → List TypedExpr → Check TypedExpr
  | .constant token literal, _ => constant token literal.value literal.type
  | .unusable token _, _ => constant token .blank .float
  | .vec3 _ (.constant _ x) (.constant _ y) (.constant _ z), _ => do
    let x ← component x.value x.type
    let y ← component y.value y.type
    let z ← component z.value z.type
    return .const ⟨.value, [.vec3], ["x", "y", "z"]⟩ (.vector [x, y, z])
  | .vec3 token _ _ _, args => do
    if args.any isEmpty then reject "Argument expression has no value" token
    call "vec3" args token
  | .name _ id, _ => useName id
  | .unary token op _, [operand] => do
    if isEmpty operand then reject "Argument expression has no value." token
    match op with
    | .not => call "_not" [operand] token
    | .negate => negate operand token
  | .binary token _ op _, args => do
    if args.any isEmpty then reject "Argument expression has no value." token
    call (operatorName op) args token
  | .member token _ attr, [value] => readOutput value attr token
  | .keyword .., _ => stop (.notSupported "")
  | .call token _ id _ _, args => call id args token
  | .method token _ _ attr _ _, args => call attr args token
  | _, _ => stop (.broken "Unreachable code")

mutual

def checkExpr : Expr → Check TypedExpr
  | expr@(.vec3 _ (.constant _ _) (.constant _ _) (.constant _ _)) => finish expr []
  | expr@(.vec3 _ x y z) => do finish expr [← checkExpr x, ← checkExpr y, ← checkExpr z]
  | expr@(.unary _ _ operand) => do finish expr [← checkExpr operand]
  | expr@(.binary _ left _ right) => do finish expr [← checkExpr left, ← checkExpr right]
  | expr@(.member _ value _) => do finish expr [← checkExpr value]
  | expr@(.call _ _ _ args keywords) => do
    if !keywords.isEmpty then stop (.notSupported "")
    finish expr (← checkExprs args)
  | expr@(.method _ _ receiver _ args keywords) => do
    if !keywords.isEmpty then stop (.notSupported "")
    finish expr ((← checkExpr receiver) :: (← checkExprs args))
  | expr => finish expr []

def checkExprs : List Expr → Check (List TypedExpr)
  | [] => return []
  | expr :: exprs => do
    let expr ← checkExpr expr
    return expr :: (← checkExprs exprs)

end

def tooManyTargets : String := "Too many assignment targets."

def componentCount : DataType → Option Nat
  | .vec3 => some 3
  | .rgba => some 4
  | _ => none

/-- Bring the named targets of an assignment into scope, each with its type. -/
def bindTargets : List (Option Target) → List DataType → Check (List (Option TypedVar))
  | [], _ => return []
  | none :: targets, types => do
    return none :: (← bindTargets targets (types.drop 1))
  | some target :: targets, types => do
    match types with
    | [] => stop .listIndex
    | type :: types =>
      let slot ← newSlot [type]
      let var : TypedVar := ⟨⟨.socket, [type], []⟩, slot, target.id, false⟩
      bind target.id var
      return some var :: (← bindTargets targets types)

def structSlot (expr : TypedExpr) : Check Nat :=
  match expr with
  | .var var => return var.slot
  | expr => newSlot expr.info.types

/-- The types of the parts of a value that is divided among several targets. -/
def componentTypes (token : Token) (expr : TypedExpr) : Check (List DataType) := do
  match componentCount (← firstType expr) with
  | none => reject tooManyTargets token
  | some count => return List.replicate count .float

def isDivided (targets : List (Option Target)) (expr : TypedExpr) : Bool :=
  1 < targets.length && expr.info.stack ≠ .struct

/-- A type for each target of an assignment, and perhaps more. -/
def targetTypes (token : Token) (targets : List (Option Target)) (expr : TypedExpr) :
    Check (List DataType) := do
  let types ← (if isDivided targets expr then componentTypes token expr else typesOf expr)
  if types.length < targets.length then reject tooManyTargets token
  return types

def noValue : String := "Right hand side of assignment should resolve to a value"

def checkAssign (token : Token) (targets : List (Option Target)) (value : Expr) :
    Check TypedStmt := do
  let expr ← checkExpr value
  match targets, expr.info.stack with
  | _, .empty => reject noValue token
  | [none], .struct => return .expr expr
  | [some target], .struct =>
    let slot ← structSlot expr
    let types ← typesOf expr
    let var : TypedVar := ⟨⟨.struct, types, expr.info.names⟩, slot, target.id, false⟩
    bind target.id var
    return .assign [some var] expr
  | targets, _ =>
    let vars ← bindTargets targets (← targetTypes token targets expr)
    return .assign vars expr

/-- The result that each target of an output statement names. -/
def outIndices : List (Option Target) → Check (List (Option Nat))
  | [] => return []
  | none :: targets => do return none :: (← outIndices targets)
  | some target :: targets => do
    match (← get).outputs.findIdx? (·.name == target.id) with
    | none =>
      reject ("Function output target \"" ++ target.id ++
        "\" doesn't match one of the functions output names.") target.token
    | some index =>
      modify fun checker => { checker with used := checker.used.set index true }
      return some index :: (← outIndices targets)

/-- Check that values of some types can be assigned to the named results. -/
def checkOutTypes (outputs : List Binding) :
    List (Option Target) → List (Option Nat) → List DataType → Check Unit
  | some target :: targets, some index :: indices, type :: types => do
    match outputs[index]? with
    | none => checkOutTypes outputs targets indices types
    | some output =>
      if !type.converts output.type then
        reject ("Can't assign value of type " ++ type.label ++ " to output of type " ++
          output.type.label) target.token
      checkOutTypes outputs targets indices types
  | _ :: targets, _ :: indices, _ :: types => checkOutTypes outputs targets indices types
  | _, _, _ => return ()

def checkOut (token : Token) (targets : List (Option Target)) (value : Expr) :
    Check TypedStmt := do
  let indices ← outIndices targets
  let expr ← checkExpr value
  let outputs := (← get).outputs
  if expr.info.stack = .empty then reject noValue token
  checkOutTypes outputs targets indices (← targetTypes token targets expr)
  return if isDivided targets expr then .expr expr else .out indices expr

def tokenOf : Expr → Token
  | .constant token .. | .unusable token _ | .vec3 token .. | .name token _ | .unary token ..
  | .binary token .. | .member token .. | .keyword token .. | .call token .. | .method token .. =>
    token
  | .missing => Place.origin.endToken

def checkDefault (param : Param) : Check (Option Value) := do
  match param.default with
  | none => return none
  | some expr =>
    match ← checkExpr expr with
    | .const info value =>
      match info.types with
      | [] => throw .rejected
      | source :: _ =>
        match convert value source param.type with
        | .ok value => return some value
        | .error _ => throw .rejected
    | _ => reject "Default value should be a value not an expression." (tokenOf expr)

def checkParams : List Param → Check (List Binding)
  | [] => return []
  | param :: params => do
    let value ← checkDefault param
    return ⟨param.name, param.type, value⟩ :: (← checkParams params)

def bindParams : List Param → Check Unit
  | [] => return ()
  | param :: params => do
    let slot ← newSlot [param.type]
    bind param.name ⟨⟨.socket, [param.type], []⟩, slot, param.name, false⟩
    bindParams params

def checkInner : Stmt → Check TypedStmt
  | .expr value => return .expr (← checkExpr value)
  | .assign token targets value => checkAssign token targets value
  | .out token targets value => checkOut token targets value
  | .loop .. => stop (.notSupported "")
  | .definition .function token .. =>
    reject "No function definitions inside a function allowed" token
  | .definition .nodeGroup token .. =>
    reject "No node group definitions inside a function allowed" token
  | .missing => stop (.broken "Unreachable code")

def checkBody : List Stmt → Check (List TypedStmt)
  | [] => return []
  | stmt :: stmts => do
    let stmt ← checkInner stmt
    return stmt :: (← checkBody stmts)

def insertFunction (functions : FunctionTable) (function : TypedFunction) : FunctionTable :=
  if functions.any (·.1 == function.name) then
    functions.map fun entry =>
      if entry.1 == function.name then (entry.1, function :: entry.2) else entry
  else functions ++ [(function.name, [function])]

def entering (checker : Checker) (outputs : List Binding) : Checker :=
  { checker with outputs, used := List.replicate outputs.length false }

/-- The state after a definition whose body was checked from one state to another. -/
def defining (outer inner : Checker) (function : TypedFunction) : Checker :=
  { inner with
    functions := insertFunction inner.functions function
    vars := outer.vars
    outputs := [] }

def checkInside (args : List Param) (outputs : List Binding) (body : List Stmt) :
    Check (List TypedStmt) := do
  bindParams args
  modify (·.entering outputs)
  checkBody body

def checkDefinition (kind : DefinitionKind) (name : String) (args : List Param) (body : List Stmt)
    (returns : List Param) : Check Unit := do
  let inputs ← checkParams args
  let outputs ← checkParams returns
  let outer ← get
  set { outer with vars := [] }
  let body ← checkInside args outputs body
  modify fun inner => defining outer inner (.mk inputs outputs
    (body.map (TypedStmt.settle inner.slots)) inner.used (kind == .nodeGroup) name)

/-- Check a statement of a formula; a definition adds nothing to its body. -/
def checkStmt : Stmt → Check (Option TypedStmt)
  | .definition kind _ name args body returns => do
    checkDefinition kind name args body returns
    return none
  | .out token _ _ => reject "Out statements only allowed inside functions" token
  | stmt => return some (← checkInner stmt)

def checkStmts : List Stmt → Check Unit
  | [] => return ()
  | stmt :: stmts => do
    let stmt ← checkStmt stmt
    modify fun checker => { checker with body := checker.body ++ stmt.toList }
    checkStmts stmts

def check [Evaluator] (checker : Checker) (source : String) : Checker × Except Fault Bool :=
  match parse source with
  | .error fault => (checker, .error fault)
  | .ok parsed =>
    let checker := { checker with reports := parsed.reports }
    if !parsed.reports.isEmpty then (checker, .ok false)
    else
      match (checkStmts parsed.body).run checker with
      | .ok _ checker => (checker, .ok true)
      | .error .rejected checker => (checker, .ok false)
      | .error (.fault fault) checker => (checker, .error fault)

/-- The statements checked so far, with the types of their variables filled in. -/
def settledBody (checker : Checker) : List TypedStmt :=
  checker.body.map (TypedStmt.settle checker.slots)

end Checker

end NodeFormula
