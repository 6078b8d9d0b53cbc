import NodeFormula.Checker
import NodeFormula.Operation

/-!
# Compiling formulas

A typed formula becomes a list of operations.  A call pushes its arguments, then what stands for
those left out, and names its node, function or node group, the body of a function included.  A
constant that is assigned becomes an input node labelled with the name.
-/

namespace NodeFormula

namespace TreeKind

def createInput (kind : TreeKind) (name : String) (value : Option Value) (type : DataType) :
    Except Fault (List Operation) :=
  let holding := fun (key prop : String) =>
    [Operation.callBuiltin ⟨key, [], [0], (value.map fun value => (prop, value)).toList⟩]
  let operations : Except Fault (List Operation) := match type with
    | .float | .unknown =>
      let set := match value with
        | some value => if value.isNonzero then [Operation.setOutput 0 value] else []
        | none => []
      .ok (.callBuiltin ⟨"ShaderNodeValue", [], [0], []⟩ :: set)
    | .bool => .ok (holding "FunctionNodeInputBool" "boolean")
    | .int => .ok (holding "FunctionNodeInputInt" "integer")
    | .rgba => .ok (holding "FunctionNodeInputColor" "color")
    | .string => .ok (holding "FunctionNodeInputString" "string")
    | .vec3 =>
      match kind, value with
      | .geometry, _ => .ok (holding "FunctionNodeInputVector" "vector")
      | .shader, some (.vector components) =>
        .ok (components.map (fun component => Operation.pushValue (some component.toValue)) ++
          [.callBuiltin ⟨"ShaderNodeCombineXYZ", [0, 1, 2], [0], []⟩])
      | .shader, none =>
        .ok (List.replicate 3 (.pushValue none) ++
          [.callBuiltin ⟨"ShaderNodeCombineXYZ", [0, 1, 2], [0], []⟩])
      | .shader, some _ => .error (.broken "Vec3 should be list of floats")
    | type => .error (.notSupported ("Creating input of type " ++ toString type.code))
  operations.map (· ++ [.renameNode name])

end TreeKind

namespace Compiler

/-- Compiling keeps the results of the function entered last, after which constants are labelled. -/
abbrev Compile := StateT (Option (List Binding)) (Except Fault)

def firstSocket (expr : TypedExpr) : List Operation :=
  if expr.info.stack = .struct then [.getOutput 0] else []

/-- What stands for the arguments of a function that a call leaves out. -/
def omittedArgs (function : TypedFunction) (given : Nat) : List Operation :=
  (function.inputs.drop given).map fun input => .pushValue input.value

def bindVars (targets : List (Option TypedVar)) : List Operation :=
  targets.filterMap fun target => target.map fun var => .createVar var.id

def bindOutputs (targets : List (Option Nat)) : List Operation :=
  targets.filterMap fun target => target.map .setFunctionOut

def splitValue (value : TypedExpr) : Except Fault (List Operation) :=
  if value.info.stack = .struct then .ok [.splitStruct]
  else
    match value.info.types with
    | .vec3 :: _ => .ok [.callBuiltin ⟨"ShaderNodeSeparateXYZ", [0], [0, 1, 2], []⟩, .splitStruct]
    | .rgba :: _ => .error (.notSupported "")
    | [] => .error .listIndex
    | _ => .error (.broken "Unreachable, bug in type checker")

/-- Divide a value among several targets. -/
def splitFor (count : Nat) (value : TypedExpr) (single : List Operation) :
    Except Fault (List Operation) :=
  if 1 < count then splitValue value else .ok single

def constType (info : TypeInfo) : Except Fault DataType :=
  match info.types with
  | type :: _ => .ok type
  | [] => .error .listIndex

mutual

def compileExpr (kind : TreeKind) : TypedExpr → Compile (List Operation)
  | .const _ value => return [.pushValue (some value)]
  | .var var => do
    if var.isFresh then
      let type ← constType var.info
      let create ← kind.createInput var.id none type
      return create ++ [.createVar var.id, .getVar var.id]
    else return [.getVar var.id]
  | .nodeCall _ recipe args => do
    let pushes ← compileArgs kind args
    let omitted := List.replicate (recipe.inputs.length - args.length) (Operation.pushValue none)
    return pushes ++ omitted ++ [.callBuiltin recipe]
  | .functionCall _ function args => do
    let pushes ← compileArgs kind args
    let omitted := omittedArgs function args.length
    let call ← compileFunction kind function
    return pushes ++ omitted ++ [call]
  | .output _ value index => do
    let operations ← compileExpr kind value
    return operations ++ [.getOutput index]

def compileArgs (kind : TreeKind) : List TypedExpr → Compile (List Operation)
  | [] => return []
  | arg :: args => do
    let operations ← compileExpr kind arg
    let rest ← compileArgs kind args
    return operations ++ firstSocket arg ++ rest

def compileFunction (kind : TreeKind) : TypedFunction → Compile Operation
  | .mk inputs outputs body _ isGroup name => do
    set (some outputs)
    let operations ← compileStmts kind body
    if isGroup then return .callNodeGroup name inputs outputs operations
    else return .callFunction (inputs.map (·.name)) operations outputs.length

def compileStmt (kind : TreeKind) : TypedStmt → Compile (List Operation)
  | .expr value => do
    let operations ← compileExpr kind value
    return operations ++ [.endOfStatement]
  | .assign targets (.const info value) => do
    match targets with
    | some target :: _ =>
      let type ← constType info
      let create ← kind.createInput target.id (some value) type
      return create ++ [.createVar target.id, .endOfStatement]
    | _ => return [.endOfStatement]
  | .assign targets value => do
    let operations ← compileExpr kind value
    let split ← splitFor targets.length value []
    return operations ++ split ++ bindVars targets ++ [.endOfStatement]
  | .out targets (.const info value) => do
    match targets with
    | some index :: _ =>
      match ← get with
      | none => throw .wrongRepresentation
      | some outputs =>
        match outputs[index]? with
        | none => throw .listIndex
        | some output =>
          let type ← constType info
          let create ← kind.createInput output.name (some value) type
          return create ++ [.setFunctionOut index, .endOfStatement]
    | _ => return [.endOfStatement]
  | .out targets value => do
    let operations ← compileExpr kind value
    let split ← splitFor targets.length value (firstSocket value)
    return operations ++ split ++ bindOutputs targets ++ [.endOfStatement]

def compileStmts (kind : TreeKind) : List TypedStmt → Compile (List Operation)
  | [] => return []
  | stmt :: stmts => do
    let operations ← compileStmt kind stmt
    let rest ← compileStmts kind stmts
    return operations ++ rest

end

structure Outcome where
  accepted : Bool
  reports : List Report
  operations : List Operation
  functions : FunctionTable

def compile [Evaluator] (kind : TreeKind) (functions : FunctionTable) (source : String) :
    FunctionTable × Except Fault Outcome :=
  let (checker, checked) := (Checker.new kind functions).check source
  let functions := checker.functions
  match checked with
  | .error fault => (functions, .error fault)
  | .ok false => (functions, .ok ⟨false, checker.reports, [], functions⟩)
  | .ok true =>
    match (compileStmts kind checker.settledBody).run none with
    | .ok (operations, _) => (functions, .ok ⟨true, checker.reports, operations, functions⟩)
    | .error fault => (functions, .error fault)

end Compiler

end NodeFormula
