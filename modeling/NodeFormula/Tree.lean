import NodeFormula.TreeKind
import NodeFormula.Typed

/-!
# Node trees

Nodes are numbered in the order in which they are made, and the trees of a session form a forest:
the tree being edited comes first, then the inner trees of node groups.
-/

namespace NodeFormula

inductive Side
  | input | output
deriving DecidableEq, Repr

structure NodeRef where
  tree : Nat
  index : Nat
deriving DecidableEq, Repr

structure SocketRef where
  tree : Nat
  node : Nat
  side : Side
  index : Nat
deriving DecidableEq, Repr

def SocketRef.owner (socket : SocketRef) : NodeRef := ⟨socket.tree, socket.node⟩

/-- What the stack, variables and socket defaults hold. -/
inductive Item
  /-- Nothing: the socket keeps what it has. -/
  | absent
  | value (value : Value)
  | socket (socket : SocketRef)
  | struct (sockets : List SocketRef)
deriving DecidableEq

namespace Item

def ofOption : Option Value → Item
  | some held => .value held
  | none => .absent

/-- The members of a struct, in the order they are kept; a vector is one too. -/
def members? : Item → Option (List Item)
  | .struct sockets => some (sockets.map .socket)
  | .value (.vector components) => some (components.map fun component => .value component.toValue)
  | _ => none

end Item

structure Socket where
  name : String
  default : Item

/-- A position or a size in the editor. -/
structure Point where
  x : Int
  y : Int
deriving DecidableEq, Repr

structure Node where
  key : String
  label : String
  /-- The properties, in the order in which they were set. -/
  props : List (String × Value)
  location : Point
  dimensions : Point
  /-- The frame around the node. -/
  parent : Option Nat
  isSelected : Bool
  group : Option Nat
  inputs : List Socket
  outputs : List Socket

namespace Node

def sockets (node : Node) : Side → List Socket
  | .input => node.inputs
  | .output => node.outputs

end Node

structure Link where
  source : SocketRef
  target : SocketRef
deriving DecidableEq, Repr

structure InterfaceSocket where
  kind : String
  name : String
  default : Option Value

structure NodeTree where
  name : String
  kind : String
  inputs : List InterfaceSocket
  outputs : List InterfaceSocket
  nodes : List Node
  links : List Link

abbrev Forest := List NodeTree

def DataType.socketKind : DataType → Except Fault String
  | .bool => .ok "NodeSocketBool"
  | .int => .ok "NodeSocketInt"
  | .float => .ok "NodeSocketFloat"
  | .rgba => .ok "NodeSocketColor"
  | .vec3 => .ok "NodeSocketVector"
  | .geometry => .ok "NodeSocketGeometry"
  | .string => .ok "NodeSocketString"
  | .shader => .ok "NodeSocketShader"
  | .object => .ok "NodeSocketObject"
  | .image => .ok "NodeSocketImage"
  | .collection => .ok "NodeSocketCollection"
  | .texture => .ok "NodeSocketTexture"
  | .material => .ok "NodeSocketMaterial"
  | .unknown | .default => .error (.broken "Unreachable")

namespace InterfaceSocket

/-- The socket of a parameter or result of a node group. -/
def ofBinding (binding : Binding) : Except Fault InterfaceSocket := do
  return ⟨← binding.type.socketKind, binding.name, binding.value⟩

def toSocket (socket : InterfaceSocket) : Socket := ⟨socket.name, .absent⟩

end InterfaceSocket

namespace NodeTree

def empty (name kind : String) : NodeTree := ⟨name, kind, [], [], [], []⟩

def socketsOf (tree : NodeTree) (key : String) : List Socket × List Socket :=
  match Catalog.shape? key with
  | some shape =>
    (shape.inputs.map fun input => ⟨input.1, .absent⟩,
      shape.outputs.map fun output => ⟨output.1, .absent⟩)
  | none =>
    if key = "NodeGroupInput" then ([], tree.inputs.map (·.toSocket))
    else if key = "NodeGroupOutput" then (tree.outputs.map (·.toSocket), [])
    else ([], [])

def freshNode (tree : NodeTree) (key : String) : Node :=
  let (inputs, outputs) := tree.socketsOf key
  ⟨key, "", [], ⟨0, 0⟩, ⟨0, 0⟩, none, false, none, inputs, outputs⟩

def addNode (tree : NodeTree) (node : Node) : NodeTree :=
  { tree with nodes := tree.nodes ++ [node] }

def modifyNode (tree : NodeTree) (index : Nat) (change : Node → Node) : NodeTree :=
  { tree with nodes := tree.nodes.modify index change }

def addLink (tree : NodeTree) (link : Link) : NodeTree :=
  { tree with links := tree.links ++ [link] }

def addInput (socket : InterfaceSocket) (tree : NodeTree) : NodeTree :=
  { tree with inputs := tree.inputs ++ [socket] }

def addOutput (socket : InterfaceSocket) (tree : NodeTree) : NodeTree :=
  { tree with outputs := tree.outputs ++ [socket] }

def deselectAll (tree : NodeTree) : NodeTree :=
  { tree with nodes := tree.nodes.map fun node => { node with isSelected := false } }

end NodeTree

namespace Node

def setInput (node : Node) (index : Nat) (item : Item) : Node :=
  { node with inputs := node.inputs.modify index fun socket => { socket with default := item } }

def setOutput (node : Node) (index : Nat) (item : Item) : Node :=
  { node with outputs := node.outputs.modify index fun socket => { socket with default := item } }

def setProp (node : Node) (name : String) (value : Value) : Node :=
  { node with props := Table.insert name value node.props }

end Node

namespace Forest

def node? (forest : Forest) (ref : NodeRef) : Option Node :=
  forest[ref.tree]?.bind (·.nodes[ref.index]?)

def modifyNode (forest : Forest) (ref : NodeRef) (change : Node → Node) : Forest :=
  forest.modify ref.tree (·.modifyNode ref.index change)

def nodesOf (forest : Forest) (tree : Nat) : List NodeRef :=
  (List.range ((forest[tree]?.map (·.nodes.length)).getD 0)).map fun index => ⟨tree, index⟩

def linksOf (forest : Forest) (tree : Nat) : List Link :=
  (forest[tree]?.map (·.links)).getD []

def isLinked (forest : Forest) (socket : SocketRef) : Bool :=
  forest.any fun tree => tree.links.any fun link => link.source == socket || link.target == socket

def socketName (forest : Forest) (socket : SocketRef) : String :=
  let tree := (forest[socket.tree]?.map (·.name)).getD ""
  let side := match socket.side with
    | .input => ".in"
    | .output => ".out"
  tree ++ "/" ++ Number.showInt socket.node ++ side ++ Number.showInt socket.index

def isUnused (forest : Forest) (ref : NodeRef) : Bool :=
  (List.range (((forest.node? ref).map (·.outputs.length)).getD 0)).all fun index =>
    !forest.isLinked ⟨ref.tree, ref.index, .output, index⟩

end Forest

end NodeFormula
