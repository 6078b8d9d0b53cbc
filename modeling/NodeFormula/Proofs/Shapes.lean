import NodeFormula.Proofs.Building

/-!
# Shapes of formulas

Whether building gets stuck depends only on the shapes of what is on the stack and in the
variables: whether an item is left out, a value, a vector with its size, a socket, or a struct
with its size.  The sketch of a typed formula follows these shapes through its statements and the
functions that they call.  Where building would stop, so does the sketch, with the same fault.
-/

namespace NodeFormula

/-- What is known of an item without looking at the tree. -/
inductive Shape
  /-- The input that it is passed to keeps what it has. -/
  | idle
  /-- A value other than a vector. -/
  | plain
  | vector (size : Nat)
  | socket
  | struct (size : Nat)
deriving DecidableEq, Repr

namespace Shape

/-- The members of a struct; a vector is one too. -/
def members? : Shape → Option (List Shape)
  | .struct size => some (List.replicate size .socket)
  | .vector size => some (List.replicate size .plain)
  | _ => none

/-- Whether a variable can be bound to an item of this shape. -/
def isHeld : Shape → Bool
  | .socket | .struct _ | .vector _ => true
  | .idle | .plain => false

/-- What a node or function with some outputs leaves on the stack. -/
def results : Nat → List Shape
  | 0 => []
  | 1 => [.socket]
  | count => [.struct count]

end Shape

def Value.shape : Value → Shape
  | .blank => .idle
  | .vector components => .vector components.length
  | _ => .plain

def Item.shape : Item → Shape
  | .absent => .idle
  | .value held => held.shape
  | .socket _ => .socket
  | .struct sockets => .struct sockets.length

structure GroupSize where
  inputs : Nat
  outputs : Nat
deriving DecidableEq, Repr

/-- What is known of a builder without its forest. -/
@[ext]
structure Profile where
  /-- The stack, its top first. -/
  stack : List Shape
  vars : List (String × Shape)
  /-- Which results of the running function have been set. -/
  outputs : List Bool
  /-- The node groups that have an inner tree. -/
  groups : List (String × GroupSize)
deriving DecidableEq, Repr

namespace Profile

def start : Profile := ⟨[], [], [], []⟩

def pushed (profile : Profile) (shapes : List Shape) : Profile :=
  { profile with stack := shapes.reverse ++ profile.stack }

def cleared (profile : Profile) : Profile := { profile with stack := [] }

def bound (profile : Profile) (name : String) (shape : Shape) : Profile :=
  { profile with vars := Table.insert name shape profile.vars }

def bind (profile : Profile) (name : String) : Except Fault Profile :=
  match profile.stack with
  | [] => .error .popFromEmpty
  | shape :: rest =>
    if shape.isHeld then .ok (bound { profile with stack := rest } name shape)
    else .error (.broken "Create var expects a node socket or struct.")

def fetch (profile : Profile) (name : String) : Except Fault Profile :=
  match profile.vars.lookup name with
  | some shape => .ok (profile.pushed [shape])
  | none => .error (.unknownKey name)

def opened (profile : Profile) (members : List Shape → Except Fault (List Shape)) :
    Except Fault Profile :=
  match profile.stack with
  | [] => .error .popFromEmpty
  | shape :: rest =>
    match shape.members? with
    | none => .error (.broken "Bug in type checker, GET_OUTPUT only works on structs.")
    | some found => do return { profile with stack := (← members found) ++ rest }

def pick (profile : Profile) (index : Nat) : Except Fault Profile :=
  profile.opened fun members =>
    match members[index]? with
    | some shape => .ok [shape]
    | none => .error .listIndex

def split (profile : Profile) : Except Fault Profile := profile.opened .ok

def setResult (profile : Profile) (index : Nat) : Except Fault Profile :=
  match profile.stack with
  | [] => .error .popFromEmpty
  | .socket :: rest =>
    if index < profile.outputs.length then
      .ok { profile with stack := rest, outputs := profile.outputs.set index true }
    else .error .assignmentIndex
  | _ => .error .wrongRepresentation

def make (profile : Profile) (recipe : NodeRecipe) : Except Fault Profile :=
  if profile.stack.length < recipe.inputs.length then .error .listIndex
  else .ok { profile with
    stack := Shape.results recipe.outputs.length ++ profile.stack.drop recipe.inputs.length }

def callFunction (profile : Profile) (names : List String) (count : Nat)
    (body : Profile → Except Fault Profile) : Except Fault Profile := do
  let args := (profile.stack.take names.length).reverse
  let after ← body { profile with
    stack := []
    vars := Builder.varsOf names args
    outputs := List.replicate count false }
  if after.outputs.all id then
    return { profile with
      stack := Shape.results after.outputs.length ++ profile.stack.drop names.length
      groups := after.groups }
  else .error .wrongRepresentation

/-- Add the node of a node group: arguments without an input have to be left out. -/
def place (profile : Profile) (size : GroupSize) (args : List Shape) : Except Fault Profile :=
  if (args.drop size.inputs).all (· == .idle) then
    .ok { profile with stack := Shape.results size.outputs ++ profile.stack }
  else .error .listIndex

/-- Call a node group; only the first call of a name makes its inner tree. -/
def callGroup (profile : Profile) (name : String) (inputs outputs : List Binding)
    (body : Profile → Except Fault Profile) : Except Fault Profile := do
  let args := (profile.stack.take inputs.length).reverse
  let rest := profile.stack.drop inputs.length
  match profile.groups.lookup name with
  | some size => place { profile with stack := rest } size args
  | none =>
    let _ ← inputs.mapM InterfaceSocket.ofBinding
    let _ ← outputs.mapM InterfaceSocket.ofBinding
    let after ← body { profile with
      stack := []
      vars := Builder.varsOf (inputs.map (·.name)) (List.replicate inputs.length .socket)
      outputs := List.replicate outputs.length false }
    let size : GroupSize := ⟨inputs.length, outputs.length⟩
    place { profile with stack := rest, groups := Table.insert name size after.groups } size args

def bindAll (profile : Profile) (targets : List (Option TypedVar)) : Except Fault Profile :=
  (targets.filterMap id).foldlM (fun profile target => profile.bind target.id) profile

def setResults (profile : Profile) (targets : List (Option Nat)) : Except Fault Profile :=
  (targets.filterMap id).foldlM setResult profile

/-- Split the value of several targets, a vector by a node that separates it. -/
def splitValue (profile : Profile) (value : TypedExpr) : Except Fault Profile := do
  if value.info.stack = .struct then profile.split
  else (← profile.make ⟨"ShaderNodeSeparateXYZ", [0], [0, 1, 2], []⟩).split

/-- Split a value for several targets, and treat it as a single one otherwise. -/
def splitFor (profile : Profile) (count : Nat) (value : TypedExpr)
    (single : Profile → Except Fault Profile) : Except Fault Profile :=
  if 1 < count then profile.splitValue value else single profile

/-- Of a struct only the first member is meant. -/
def firstOf (profile : Profile) (value : TypedExpr) : Except Fault Profile :=
  if value.info.stack = .struct then profile.pick 0 else .ok profile

end Profile

mutual

def TypedExpr.sketch : TypedExpr → Profile → Except Fault Profile
  | .const _ value, profile => .ok (profile.pushed [value.shape])
  | .var reference, profile =>
    if reference.isFresh then .ok ((profile.bound reference.id .socket).pushed [.socket])
    else profile.fetch reference.id
  | .nodeCall _ recipe args, profile => do
    let profile ← TypedExpr.sketchArgs args profile
    let omitted := List.replicate (recipe.inputs.length - args.length) .idle
    (profile.pushed omitted).make recipe
  | .functionCall _ function args, profile => do
    let profile ← TypedExpr.sketchArgs args profile
    let omitted := (function.inputs.drop args.length).map fun input =>
      (Item.ofOption input.value).shape
    function.sketch (profile.pushed omitted)
  | .output _ value index, profile => do (← value.sketch profile).pick index

def TypedExpr.sketchArgs : List TypedExpr → Profile → Except Fault Profile
  | [], profile => .ok profile
  | arg :: args, profile => do
    let profile ← (← arg.sketch profile).firstOf arg
    TypedExpr.sketchArgs args profile

def TypedFunction.sketch : TypedFunction → Profile → Except Fault Profile
  | .mk inputs outputs body _ isGroup name, profile =>
    if isGroup then profile.callGroup name inputs outputs (TypedStmt.sketchAll body)
    else profile.callFunction (inputs.map (·.name)) outputs.length (TypedStmt.sketchAll body)

def TypedStmt.sketch : TypedStmt → Profile → Except Fault Profile
  | .expr value, profile => do return (← value.sketch profile).cleared
  | .assign targets (.const _ _), profile =>
    match targets with
    | some target :: _ => .ok (profile.bound target.id .socket).cleared
    | _ => .ok profile.cleared
  | .assign targets value, profile => do
    let profile ← value.sketch profile
    let profile ← profile.splitFor targets.length value .ok
    return (← profile.bindAll targets).cleared
  | .out targets (.const _ _), profile =>
    match targets with
    | some index :: _ => do return (← (profile.pushed [.socket]).setResult index).cleared
    | _ => .ok profile.cleared
  | .out targets value, profile => do
    let profile ← value.sketch profile
    let profile ← profile.splitFor targets.length value (·.firstOf value)
    return (← profile.setResults targets).cleared

def TypedStmt.sketchAll : List TypedStmt → Profile → Except Fault Profile
  | [], profile => .ok profile
  | stmt :: stmts, profile => do
    let profile ← stmt.sketch profile
    TypedStmt.sketchAll stmts profile

end

end NodeFormula
