import NodeFormula.Host
import NodeFormula.Layout

/-!
# Selecting and arranging from a node

The operators that select the nodes linked to the active node, or arrange the
nodes that feed it.
-/

namespace NodeFormula

structure Space where
  type : String
  treeKind : String
deriving DecidableEq, Repr

namespace Space

def takesFormulas (space : Space) : Bool :=
  space.type == "NODE_EDITOR" &&
    (space.treeKind == TreeKind.geometry.label || space.treeKind == TreeKind.shader.label)

end Space

namespace NodeTree

def successors (tree : NodeTree) (node : Nat) : List Nat :=
  if (tree.nodes[node]?.map (·.outputs.isEmpty)).getD true then []
  else (tree.links.filter (·.source.node == node)).map (·.target.node)

def predecessors (tree : NodeTree) (node : Nat) : List Nat :=
  if (tree.nodes[node]?.map (·.inputs.isEmpty)).getD true then []
  else (tree.links.filter (·.target.node == node)).map (·.source.node)

def reach (next : Nat → List Nat) : Nat → List Nat → Nat → List Nat
  | 0, visited, _ => visited
  | fuel + 1, visited, node =>
    if visited.contains node then visited
    else (next node).foldl (reach next fuel) (visited ++ [node])

def descendants (tree : NodeTree) (node : Nat) : List Nat :=
  reach tree.successors (tree.nodes.length + 1) [] node

def ancestors (tree : NodeTree) (node : Nat) : List Nat :=
  reach tree.predecessors (tree.nodes.length + 1) [] node

def select (tree : NodeTree) (nodes : List Nat) : NodeTree :=
  { tree with nodes := tree.nodes.mapIdx fun index node =>
      if nodes.contains index then { node with isSelected := true } else node }

def selectFrom (tree : NodeTree) (active : Nat) (children parents : Bool) : NodeTree :=
  let tree := tree.deselectAll.select [active]
  let tree := if children then tree.select (tree.ancestors active) else tree
  if parents then tree.select (tree.descendants active) else tree

def arrangeFrom (tree : NodeTree) (spacing : Spacing) (active : Nat) :
    NodeTree × Except Fault OperatorResult :=
  let tree := tree.deselectAll.select [active]
  match (Layout.placeNodes (.single ⟨0, active⟩) none).run
    (Layout.new spacing tree.links [tree]) with
  | .ok _ layout => (layout.forest.headD tree, .ok .finished)
  | .error fault layout => (layout.forest.headD tree, .error fault)

end NodeTree

end NodeFormula
