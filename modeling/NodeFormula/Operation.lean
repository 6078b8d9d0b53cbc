import NodeFormula.Typed.Printing

/-!
# Operations

A compiled formula is a list of operations for a stack machine that builds a
node tree.  The stack holds values, sockets and structs of sockets.
-/

namespace NodeFormula

inductive Operation
  /-- Push a value; an absent value leaves a socket as it is. -/
  | pushValue (value : Option Value)
  | createVar (name : String)
  | getVar (name : String)
  /-- Replace the struct on top of the stack by one of its sockets. -/
  | getOutput (index : Nat)
  /-- Set an output of the node added last. -/
  | setOutput (index : Nat) (value : Value)
  | setFunctionOut (index : Nat)
  /-- Replace the struct on top of the stack by its sockets. -/
  | splitStruct
  | callFunction (inputs : List String) (body : List Operation) (outputCount : Nat)
  | callNodeGroup (name : String) (inputs outputs : List Binding) (body : List Operation)
  | callBuiltin (recipe : NodeRecipe)
  | renameNode (name : String)
  | endOfStatement

namespace Operation

def label : Operation → String
  | .pushValue _ => "PUSH_VALUE"
  | .createVar _ => "CREATE_VAR"
  | .getVar _ => "GET_VAR"
  | .getOutput _ => "GET_OUTPUT"
  | .setOutput _ _ => "SET_OUTPUT"
  | .setFunctionOut _ => "SET_FUNCTION_OUT"
  | .splitStruct => "SPLIT_STRUCT"
  | .callFunction _ _ _ => "CALL_FUNCTION"
  | .callNodeGroup _ _ _ _ => "CALL_NODEGROUP"
  | .callBuiltin _ => "CALL_BUILTIN"
  | .renameNode _ => "RENAME_NODE"
  | .endOfStatement => "END_OF_STATEMENT"

def plainValue : Option Value → String
  | some (.text text) => text
  | some value => value.written
  | none => "None"

mutual

def written (operation : Operation) : String :=
  let data := match operation with
    | .pushValue value => plainValue value
    | .createVar name | .getVar name | .renameNode name => name
    | .getOutput index | .setFunctionOut index => Number.showInt index
    | .setOutput index value => "(" ++ Number.showInt index ++ ", " ++ value.written ++ ")"
    | .splitStruct | .endOfStatement => "None"
    | .callFunction inputs body outputCount =>
      "CompiledFunction(inputs=" ++ Text.bracketed (inputs.map Text.quoted) ++ ", body=" ++
        Text.bracketed (writtenAll body) ++ ", num_outputs=" ++ Number.showInt outputCount ++ ")"
    | .callNodeGroup name inputs outputs body =>
      "CompiledNodeGroup(name=" ++ Text.quoted name ++ ", inputs=" ++
        Text.bracketed (inputs.map fun input => input.outline.flat) ++ ", outputs=" ++
        Text.bracketed (outputs.map fun output => output.outline.flat) ++ ", body=" ++
        Text.bracketed (writtenAll body) ++ ")"
    | .callBuiltin recipe => recipe.written
  "(" ++ operation.label ++ ", " ++ data ++ ")"

def writtenAll : List Operation → List String
  | [] => []
  | operation :: operations => operation.written :: writtenAll operations

end

end Operation

end NodeFormula
