import NodeFormula.Operation
import NodeFormula.Tree

/-!
# Building node trees

The builder runs operations on a stack and adds nodes and links to a forest.  A function runs with
variables, results and a stack of its own; a node group also with an inner tree, which later calls
of the name use again.  A fault leaves everything as it was when it arose.
-/

namespace NodeFormula

structure Builder where
  forest : Forest
  tree : Nat
  /-- The stack, its top first. -/
  stack : List Item
  vars : List (String × Item)
  outputs : List (Option SocketRef)
  added : List NodeRef
  /-- The inner trees of node groups, by name. -/
  groups : List (String × Nat)

namespace Builder

def new (forest : Forest) : Builder := ⟨forest, 0, [], [], [], [], []⟩

abbrev Build := EStateM Fault Builder

def push (item : Item) : Build Unit :=
  modify fun builder => { builder with stack := item :: builder.stack }

def pop : Build Item := do
  let builder ← get
  match builder.stack with
  | [] => throw .popFromEmpty
  | item :: rest =>
    set { builder with stack := rest }
    return item

/-- Take up to `count` items from the stack, the lowest first. -/
def popMany (count : Nat) : Build (List Item) := do
  let builder ← get
  set { builder with stack := builder.stack.drop count }
  return (builder.stack.take count).reverse

def modifyTree (change : NodeTree → NodeTree) : Build Unit :=
  modify fun builder => { builder with forest := builder.forest.modify builder.tree change }

def currentTree : Build NodeTree := do
  let builder ← get
  return builder.forest.getD builder.tree (.empty "" "")

def newNode (key : String) : Build Nat := do
  let tree ← currentTree
  modifyTree fun tree => tree.addNode (tree.freshNode key)
  return tree.nodes.length

def nodeAt (index : Nat) : Build Node := do
  let tree ← currentTree
  return tree.nodes.getD index (tree.freshNode "")

def socketAt (node : Nat) (side : Side) (index : Nat) : Build SocketRef := do
  let found ← nodeAt node
  if index < (found.sockets side).length then return ⟨(← get).tree, node, side, index⟩
  else throw .listIndex

def feed (node index : Nat) (item : Item) : Build Unit := do
  match item with
  | .absent => return ()
  | .value .blank => return ()
  | .socket source =>
    let target ← socketAt node .input index
    modifyTree (·.addLink ⟨source, target⟩)
  | item =>
    let _ ← socketAt node .input index
    modifyTree (·.modifyNode node (·.setInput index item))

def feedAll (node : Nat) : List Nat → List Item → Build Unit
  | [], _ => return ()
  | _ :: _, [] => throw .listIndex
  | index :: indices, item :: items => do
    feed node index item
    feedAll node indices items

def pushOutputs (node : Nat) (indices : List Nat) : Build Unit := do
  match indices with
  | [] => return ()
  | [index] => push (.socket (← socketAt node .output index))
  | indices => push (.struct (← indices.reverse.mapM (socketAt node .output)))

def remember (node : Nat) : Build Unit :=
  modify fun builder => { builder with added := builder.added ++ [⟨builder.tree, node⟩] }

def callBuiltin (recipe : NodeRecipe) : Build Unit := do
  let args ← popMany recipe.inputs.length
  let node ← newNode recipe.key
  modifyTree (·.modifyNode node fun made =>
    recipe.props.foldl (fun made prop => made.setProp prop.1 prop.2) made)
  feedAll node recipe.inputs args
  pushOutputs node recipe.outputs
  remember node

def modifyLast (change : Node → Node) : Build Unit := do
  let builder ← get
  match builder.added.getLast? with
  | none => throw .listIndex
  | some last => set { builder with forest := builder.forest.modifyNode last change }

/-- The variables of a call: parameters with their arguments. -/
def varsOf {α : Type} (names : List String) (items : List α) : List (String × α) :=
  (names.zip items).foldl (fun vars entry => Table.insert entry.1 entry.2 vars) []

def createVar (name : String) : Build Unit := do
  let item ← pop
  let keep := modify fun builder => { builder with vars := Table.insert name item builder.vars }
  match item with
  | .socket _ | .struct _ | .value (.vector _) => keep
  | _ => throw (.broken "Create var expects a node socket or struct.")

def popStruct : Build (List Item) := do
  match (← pop).members? with
  | some members => return members
  | none => throw (.broken "Bug in type checker, GET_OUTPUT only works on structs.")

/-- Replace a struct by one of its sockets, counted from the first output. -/
def getOutput (index : Nat) : Build Unit := do
  let members ← popStruct
  match members.reverse[index]? with
  | some item => push item
  | none => throw .listIndex

def setFunctionOut (index : Nat) : Build Unit := do
  match ← pop with
  | .socket socket =>
    let builder ← get
    if index < builder.outputs.length then
      set { builder with outputs := builder.outputs.set index (some socket) }
    else throw .assignmentIndex
  | _ => throw .wrongRepresentation

def results (outputs : List (Option SocketRef)) : Build (List SocketRef) :=
  outputs.mapM fun output => match output with
    | some socket => pure socket
    | none => throw .wrongRepresentation

/-- Add sockets to the interface of an inner tree; those added before a fault stay. -/
def addInterface (group : Nat) (place : InterfaceSocket → NodeTree → NodeTree) :
    List Binding → Build Unit
  | [] => return ()
  | binding :: bindings => do
    match InterfaceSocket.ofBinding binding with
    | .error fault => throw fault
    | .ok socket =>
      modify fun builder => { builder with forest := builder.forest.modify group (place socket) }
      addInterface group place bindings

/-- Go into a new inner tree with the interface of a node group; the answer is its output node. -/
def openGroup (name : String) (inputs outputs : List Binding) : Build Nat := do
  let kind := (← currentTree).kind
  let group := (← get).forest.length
  modify fun builder => { builder with forest := builder.forest ++ [NodeTree.empty name kind] }
  addInterface group NodeTree.addInput inputs
  addInterface group NodeTree.addOutput outputs
  let inner := (← get).forest.getD group (.empty "" "")
  modify fun builder => { builder with
    tree := group
    stack := []
    outputs := List.replicate outputs.length none
    vars := varsOf (inner.inputs.map (·.name))
      ((List.range inner.inputs.length).map fun index => .socket ⟨group, 0, .output, index⟩) }
  let _ ← newNode "NodeGroupInput"
  newNode "NodeGroupOutput"

def linkResults (node : Nat) : Nat → List (Option SocketRef) → Build Unit
  | _, [] => return ()
  | index, output :: outputs => do
    match output with
    | some source =>
      let target ← socketAt node .input index
      modifyTree (·.addLink ⟨source, target⟩)
    | none => pure ()
    linkResults node (index + 1) outputs

def addGroupNode (group : Nat) (args : List Item) : Build Unit := do
  let tree ← currentTree
  let key := if tree.kind = TreeKind.geometry.label then "GeometryNodeGroup" else "ShaderNodeGroup"
  let inner := (← get).forest.getD group (.empty "" "")
  let node ← newNode key
  modifyTree (·.modifyNode node fun made =>
    { made with
      group := some group
      inputs := inner.inputs.map (·.toSocket)
      outputs := inner.outputs.map (·.toSocket) })
  feedAll node (List.range args.length) args
  remember node
  pushOutputs node (List.range inner.outputs.length)

mutual

def run : Operation → Build Unit
  | .pushValue value => push (.ofOption value)
  | .createVar name => createVar name
  | .getVar name => do
    match (← get).vars.lookup name with
    | some item => push item
    | none => throw (.unknownKey name)
  | .getOutput index => getOutput index
  | .setOutput index value => do
    let builder ← get
    match builder.added.getLast? with
    | none => throw .listIndex
    | some last =>
      let count := ((builder.forest.node? last).map (·.outputs.length)).getD 0
      if index < count then modifyLast (·.setOutput index (.value value))
      else throw .listIndex
  | .setFunctionOut index => setFunctionOut index
  | .splitStruct => do
    let members ← popStruct
    modify fun builder => { builder with stack := members.reverse ++ builder.stack }
  | .callFunction inputs body outputCount => do
    let args ← popMany inputs.length
    let outer ← get
    set { outer with
      stack := []
      vars := varsOf inputs args
      outputs := List.replicate outputCount none }
    runAll body
    modify fun builder => { builder with stack := outer.stack }
    let sockets ← results (← get).outputs
    match sockets with
    | [] => pure ()
    | [socket] => push (.socket socket)
    | sockets => push (.struct sockets.reverse)
    modify fun builder => { builder with outputs := outer.outputs, vars := outer.vars }
  | .callNodeGroup name inputs outputs body => do
    let args ← popMany inputs.length
    let outer ← get
    match outer.groups.lookup name with
    | some group => addGroupNode group args
    | none =>
      let result ← openGroup name inputs outputs
      runAll body
      linkResults result 0 (← get).outputs
      modify fun builder => { builder with
        tree := outer.tree
        stack := outer.stack
        outputs := outer.outputs
        vars := outer.vars
        groups := Table.insert name outer.forest.length builder.groups }
      addGroupNode outer.forest.length args
  | .callBuiltin recipe => callBuiltin recipe
  | .renameNode name => modifyLast fun node => { node with label := name }
  | .endOfStatement => modify fun builder => { builder with stack := [] }

def runAll : List Operation → Build Unit
  | [] => return ()
  | operation :: operations => do
    run operation
    runAll operations

end

end Builder

end NodeFormula
