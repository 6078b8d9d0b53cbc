import NodeFormula.Tree

/-!
# Arranging nodes

The nodes that feed some roots are arranged as a tree that grows to the left, one column for each
level.  First the links are reduced to a tree: a node that feeds several others becomes a child of
the one on the deepest level.  A first walk finds a position for each node relative to its
siblings and moves subtrees apart where they would touch, and a second walk adds up the moves.

An entry of the tree refers to others by their index.  A root that stands for a list of roots is
no node.
-/

namespace NodeFormula

structure Spacing where
  level : Int
  sibling : Int
  subtree : Int
deriving DecidableEq, Repr

/-- The place of a node in the tree that is arranged. -/
structure LayoutEntry where
  node : Option NodeRef
  parent : Option Nat
  children : List Nat
  left : Option Nat
  right : Option Nat
  width : Int
  height : Int
  /-- The vertical position among the siblings. -/
  prelim : Int
  /-- By how much the descendants move. -/
  modifier : Int
  depth : Nat
  /-- The entry before this one on the same level. -/
  neighbour : Option Nat
deriving DecidableEq, Repr

namespace LayoutEntry

/-- A size without a measurement is that of the kind of node, and some space. -/
def sizeOr (measured usual : Int) : Int := if measured = 0 then usual + 10 else measured

def ofNode (ref : NodeRef) (node : Node) (depth : Nat) : LayoutEntry :=
  ⟨some ref, none, [], none, none, sizeOr node.dimensions.x 140, sizeOr node.dimensions.y 100,
    0, 0, depth, none⟩

def ofRoots : LayoutEntry := ⟨none, none, [], none, none, 10, 10, 0, 0, 0, none⟩

end LayoutEntry

def levelCount : Nat := 100

def farAway : Int := 9223372036854775807

structure Layout where
  spacing : Spacing
  links : List Link
  forest : Forest
  rootLocation : Point
  entries : List LayoutEntry
  visited : List Nat
  widths : List Int
  /-- The last entry on each level. -/
  previous : List (Option Nat)
  top : Point
  least : Point
  greatest : Point

namespace Layout

def new (spacing : Spacing) (links : List Link) (forest : Forest) : Layout :=
  ⟨spacing, links, forest, ⟨0, 0⟩, [], [], List.replicate levelCount 0,
    List.replicate levelCount none, ⟨0, 0⟩, ⟨farAway, farAway⟩, ⟨-farAway, -farAway⟩⟩

abbrev Arrange := EStateM Fault Layout

def entryAt (index : Nat) : Arrange LayoutEntry := do
  return (← get).entries.getD index .ofRoots

def modifyEntry (index : Nat) (change : LayoutEntry → LayoutEntry) : Arrange Unit :=
  modify fun layout => { layout with entries := layout.entries.modify index change }

def addEntry (entry : LayoutEntry) : Arrange Nat := do
  let layout ← get
  set { layout with entries := layout.entries ++ [entry] }
  return layout.entries.length

def nodeAt (ref : NodeRef) : Arrange Node := do
  return ((← get).forest.node? ref).getD ((NodeTree.empty "" "").freshNode "")

def modifyNode (ref : NodeRef) (change : Node → Node) : Arrange Unit :=
  modify fun layout => { layout with forest := layout.forest.modifyNode ref change }

def visit (index : Nat) : Arrange Unit :=
  modify fun layout => { layout with visited := layout.visited ++ [index] }

/-! ## From links to a tree -/

def visitedFor (layout : Layout) (node : NodeRef) : Option Nat :=
  layout.visited.find? fun index => (layout.entries[index]?.bind (·.node)) == some node

def setDepth : Nat → Nat → Nat → Arrange Unit
  | 0, _, _ => throw .exhausted
  | fuel + 1, index, depth => do
    modifyEntry index fun entry => { entry with depth }
    (← entryAt index).children.forM fun child => setDepth fuel child (depth + 1)

/-- Move an entry below another parent, without siblings for now. -/
def reparent (index parent : Nat) : Arrange Unit := do
  let entry ← entryAt index
  match entry.parent with
  | some former =>
    modifyEntry former fun entry => { entry with children := entry.children.filter (· != index) }
  | none => pure ()
  modifyEntry index fun entry => { entry with parent := some parent }
  match entry.left with
  | some left => modifyEntry left fun other => { other with right := entry.right }
  | none => pure ()
  match entry.right with
  | some right => modifyEntry right fun other => { other with left := entry.left }
  | none => pure ()
  modifyEntry index fun entry => { entry with left := none, right := none }
  setDepth ((← get).entries.length + 1) index ((← entryAt parent).depth + 1)

/--
The links that make children of an entry: one for each node that feeds it.  A node that has an entry
only moves if it does not get closer to the root.
-/
def childLinks (index : Nat) (node : NodeRef) (depth : Nat) :
    List (Link × Option Nat) → List Link → Arrange (List (Link × Option Nat))
  | found, [] => return found
  | found, link :: links => do
    if link.target.owner ≠ node || found.any (·.1.source.owner == link.source.owner) then
      childLinks index node depth found links
    else
      match (← get).visitedFor link.source.owner with
      | none => childLinks index node depth (found ++ [(link, none)]) links
      | some other =>
        if (← entryAt other).depth ≤ depth then
          reparent other index
          childLinks index node depth (found ++ [(link, some other)]) links
        else childLinks index node depth found links

def inSocketOrder (socketCount : Nat) (found : List (Link × Option Nat)) :
    List (Link × Option Nat) :=
  (List.range socketCount).flatMap fun socket => found.filter (·.1.target.index == socket)

/-- The children for some links, each with whether it is new; new ones are selected. -/
def makeChildren (depth : Nat) : List (Link × Option Nat) → Arrange (List (Nat × Bool))
  | [] => return []
  | (_, some known) :: rest => do
    return (known, false) :: (← makeChildren depth rest)
  | (link, none) :: rest => do
    let source := link.source.owner
    modifyNode source fun node => { node with isSelected := true }
    let child ← addEntry (.ofNode source (← nodeAt source) (depth + 1))
    visit child
    return (child, true) :: (← makeChildren depth rest)

def adopt (parent : Nat) (left : Option Nat) : List Nat → Arrange Unit
  | [] => return ()
  | child :: rest => do
    modifyEntry child fun entry =>
      { entry with
        parent := some parent
        left := left.orElse fun _ => entry.left
        right := rest.head?.orElse fun _ => entry.right }
    adopt parent (some child) rest

def grow : Nat → Nat → Nat → Arrange Unit
  | 0, _, _ => throw .exhausted
  | fuel + 1, index, depth => do
    match (← entryAt index).node with
    | none => return ()
    | some node =>
      let found ← childLinks index node depth [] (← get).links
      if found.isEmpty then return ()
      let sockets := (← nodeAt node).inputs.length
      let children ← makeChildren depth (inSocketOrder sockets found)
      modifyEntry index fun entry => { entry with children := children.map (·.1) }
      adopt index none (children.map (·.1))
      children.forM fun child =>
        if child.2 then grow fuel child.1 (depth + 1) else pure ()

/-! ## The first walk -/

/-- An entry and its siblings to the right; a chain is no longer than the table. -/
def siblingsFrom (entries : List LayoutEntry) : Nat → Option Nat → List Nat
  | 0, _ | _, none => []
  | fuel + 1, some index =>
    index :: siblingsFrom entries fuel (entries[index]?.bind (·.right))

def childrenOf (layout : Layout) (index : Nat) : List Nat :=
  siblingsFrom layout.entries (layout.entries.length + 1)
    (layout.entries[index]?.bind (·.children.head?))

/-- The leftmost descendant that is `levels` below an entry. -/
def leftmost? (layout : Layout) : Nat → Nat → Option Nat
  | 0, index => some index
  | levels + 1, index => (layout.childrenOf index).findSome? (layout.leftmost? levels)

def parentOf (index : Option Nat) : Arrange (Option Nat) := do
  match index with
  | none => throw (.noAttribute "NoneType" "parent")
  | some index => return (← entryAt index).parent

def modifierOf (index : Option Nat) : Arrange Int := do
  match index with
  | none => throw (.noAttribute "NoneType" "modifier")
  | some index => return (← entryAt index).modifier

/-- Go up from an entry and from its neighbour, adding up the moves. -/
def climb : Nat → Option Nat → Option Nat → Int → Int → Arrange (Option Nat × Int × Int)
  | 0, _, neighbour, leftSum, rightSum => return (neighbour, leftSum, rightSum)
  | levels + 1, entry, neighbour, leftSum, rightSum => do
    let entry ← parentOf entry
    let neighbour ← parentOf neighbour
    let right ← modifierOf entry
    let left ← modifierOf neighbour
    climb levels entry neighbour (leftSum + left) (rightSum + right)

def leftUntil (entries : List LayoutEntry) (stop : Option Nat) : Nat → Option Nat →
    Option (List Nat)
  | 0, _ => none
  | _, none => none
  | fuel + 1, some index =>
    if some index = stop then some []
    else (leftUntil entries stop fuel (entries[index]?.bind (·.left))).map (index :: ·)

/-- Move subtrees, each by a portion less than the one before it. -/
def spread (portion : Int) : Int → List Nat → Arrange Unit
  | _, [] => return ()
  | distance, index :: rest => do
    modifyEntry index fun entry =>
      { entry with prelim := entry.prelim + distance, modifier := entry.modifier + distance }
    spread portion (distance - portion) rest

/-- The entry to go on with on the next level: a child of the last one, or the leftmost. -/
def nextBelow? (layout : Layout) (index levels last : Nat) : Option Nat :=
  match layout.entries[last]?.bind (·.children.head?) with
  | some child => some child
  | none => layout.leftmost? (levels + 1) index

/--
Move the subtree below an entry away from its neighbours, level by level; those between share the
move.
-/
def apportion (index : Nat) : Nat → Nat → Option Nat → Option Nat → Arrange Unit
  | 0, _, _, _ => throw .exhausted
  | fuel + 1, levels, some leftmost, some neighbour => do
    let (ancestor, leftSum, rightSum) ← climb levels (some leftmost) (some neighbour) 0 0
    let beside ← entryAt neighbour
    let first ← entryAt leftmost
    let distance := beside.prelim + leftSum + (← get).spacing.subtree + beside.height -
      (first.prelim + rightSum)
    let proceed := do
      match (← get).nextBelow? index levels leftmost with
      | none => return ()
      | some next => apportion index fuel (levels + 1) (some next) (← entryAt next).neighbour
    if 0 < distance then
      let entries := (← get).entries
      match leftUntil entries ancestor (entries.length + 1) (some index) with
      | none => return ()
      | some [] => throw .divisionByZero
      | some between =>
        spread (distance.fdiv between.length) distance between
        proceed
    else proceed
  | _, _, _, _ => return ()

def afterSibling (left : Nat) : Arrange Int := do
  let sibling ← entryAt left
  return sibling.prelim + (← get).spacing.sibling + sibling.height

/-- Come to an entry: its neighbour is the one that was met last on the level. -/
def meet (index level : Nat) : Arrange LayoutEntry := do
  match (← get).previous[level]? with
  | none => throw .listIndex
  | some neighbour =>
    modify fun layout => { layout with previous := layout.previous.set level (some index) }
    modifyEntry index fun entry => { entry with neighbour, modifier := 0 }
    entryAt index

def placeLeaf (index : Nat) (left : Option Nat) : Arrange Unit := do
  match left with
  | some left =>
    let prelim ← afterSibling left
    modifyEntry index fun entry => { entry with prelim }
  | none => modifyEntry index fun entry => { entry with prelim := 0 }

/-- Place an entry at the middle of the entries below it, or these below it. -/
def placeAbove (index first last : Nat) (left : Option Nat) : Arrange Unit := do
  let middle := ((← entryAt first).prelim + (← entryAt last).prelim).fdiv 2
  match left with
  | some left =>
    let prelim ← afterSibling left
    modifyEntry index fun entry => { entry with prelim, modifier := prelim - middle }
    apportion index (levelCount + 2) 1 (some first) (← entryAt first).neighbour
  | none => modifyEntry index fun entry => { entry with prelim := middle }

/-- Find the position of each entry relative to its siblings. -/
def firstWalk : Nat → Nat → Nat → Arrange Unit
  | 0, _, _ => throw .exhausted
  | fuel + 1, index, level => do
    let entry ← meet index level
    match entry.children with
    | [] => placeLeaf index entry.left
    | first :: _ =>
      let children := (← get).childrenOf index
      children.forM fun child => firstWalk fuel child (level + 1)
      placeAbove index first (children.getLast?.getD first) entry.left
    modify fun layout => { layout with widths := layout.widths.modify level (max entry.width) }

/-! ## The second walk -/

def locationOf (layout : Layout) (index : Nat) : Point :=
  match layout.entries[index]?.bind (·.node) with
  | some node => ((layout.forest.node? node).map (·.location)).getD ⟨0, 0⟩
  | none => layout.rootLocation

def moveTo (index : Nat) (location : Point) : Arrange Unit := do
  match (← entryAt index).node with
  | some node => modifyNode node fun node => { node with location }
  | none => modify fun layout => { layout with rootLocation := location }

/-- Go on with the first child of an entry, past the column of its level. -/
def walkBelow (layout : Layout) (entry : LayoutEntry) (level : Nat) (widthSum : Int)
    (walk : Nat → Int → Arrange Unit) : Arrange Unit :=
  match entry.children with
  | [] => pure ()
  | first :: _ =>
    match layout.widths[level + 1]? with
    | none => throw .listIndex
    | some width => walk first (widthSum + width + layout.spacing.level)

/-- Place an entry, the entries below it and those to its right. -/
def secondWalk : Nat → Nat → Nat → Int → Int → Arrange Unit
  | 0, _, _, _, _ => throw .exhausted
  | fuel + 1, index, level, widthSum, modifierSum => do
    let entry ← entryAt index
    let layout ← get
    let x := layout.top.x - widthSum
    let y := layout.top.y - entry.prelim - modifierSum
    set { layout with
      least := ⟨min x layout.least.x, min (y + entry.height) layout.least.y⟩
      greatest := ⟨max (x + entry.width) layout.greatest.x, max y layout.greatest.y⟩ }
    moveTo index ⟨x, y⟩
    visit index
    layout.walkBelow entry level widthSum fun first widthSum =>
      secondWalk fuel first (level + 1) widthSum (modifierSum + entry.modifier)
    match entry.right with
    | none => pure ()
    | some right => secondWalk fuel right level widthSum modifierSum

/-! ## The whole arrangement -/

/-- What is arranged: the nodes that feed one node, or a list of nodes. -/
inductive Roots
  | single (node : NodeRef)
  | several (nodes : List NodeRef)
deriving DecidableEq, Repr

/-- Enough steps to build the tree of a layout. -/
def growFuel (layout : Layout) : Nat := layout.forest.foldr (·.nodes.length + ·) 0 + 2

def addRoots : List NodeRef → Arrange (List Nat)
  | [] => return []
  | root :: roots => do
    let index ← addEntry (.ofNode root (← nodeAt root) 1)
    visit index
    return index :: (← addRoots roots)

def growRoots (roots : Roots) : Arrange Nat := do
  let fuel := (← get).growFuel
  match roots with
  | .single node =>
    let root ← addEntry (.ofNode node (← nodeAt node) 0)
    grow fuel root 0
    return root
  | .several nodes =>
    let root ← addEntry .ofRoots
    let children ← addRoots nodes
    modifyEntry root fun entry => { entry with children }
    adopt root none children
    children.forM fun child => grow fuel child 1
    return root

/-- Part of the name of the nodes that only bend a link. -/
def rerouteMark : String := "NodeReroute"

def isInside (part : List Char) : List Char → Bool
  | [] => part.isEmpty
  | char :: rest => part.isPrefixOf (char :: rest) || isInside part rest

/-- How far down a node is moved in the end: one that bends a link is near the sockets. -/
def drop (layout : Layout) (index : Nat) : Int :=
  match layout.entries[index]?.bind (·.node) with
  | none => 0
  | some node =>
    let key := ((layout.forest.node? node).map (·.key)).getD ""
    if isInside rerouteMark.toList key.toList then 30 else 0

def shift (offset : Point) : List Nat → Arrange Unit
  | [] => return ()
  | index :: rest => do
    let layout ← get
    let location := layout.locationOf index
    moveTo index ⟨location.x + offset.x, location.y + offset.y - layout.drop index⟩
    shift offset rest

/--
Arrange the nodes that feed some roots.  With a cursor the arrangement starts at its height, and the
answer is where the next nodes would go; otherwise the root stays where it is.
-/
def placeNodes (roots : Roots) (cursor : Option Point) : Arrange (Option Point) := do
  let root ← growRoots roots
  modify fun layout => { layout with visited := [] }
  let before := (← get).locationOf root
  firstWalk (levelCount + 1) root 0
  let prelim := (← entryAt root).prelim
  modify fun layout => { layout with top :=
    ⟨(layout.locationOf root).x, (layout.locationOf root).y - prelim⟩ }
  secondWalk ((← get).entries.length + 1) root 0 0 0
  let layout ← get
  match cursor with
  | some cursor =>
    shift ⟨-layout.least.x, cursor.y - layout.greatest.y⟩ layout.visited
    return some ⟨cursor.x + layout.greatest.x - layout.least.x, cursor.y⟩
  | none =>
    let after := layout.locationOf root
    shift ⟨before.x - after.x, before.y - after.y⟩ layout.visited
    return none

/-! ## Describing entries -/

/-- Part of the name of the nodes that are called by their operation. -/
def mathMark : String := "Math"

/-- What an entry is called: its operation, its label or its kind. -/
def title (layout : Layout) (index : Nat) : Except Fault String :=
  match layout.entries[index]?.bind (·.node) with
  | none => .error (.noAttribute "DummyNode" "label")
  | some node =>
    match layout.forest.node? node with
    | none => .error (.noAttribute "DummyNode" "label")
    | some node =>
      if isInside mathMark.toList node.key.toList then
        match node.props.lookup "operation" with
        | some (.text operation) => .ok operation
        | some value => .ok value.written
        | none => .error (.noAttribute "Node" "operation")
      else .ok (if node.label ≠ "" then node.label else node.key)

def titleOption (layout : Layout) : Option Nat → Except Fault String
  | none => .ok "None"
  | some index => layout.title index

def describe (layout : Layout) (index : Nat) : Except Fault String := do
  let entry := layout.entries.getD index .ofRoots
  let parent ← layout.titleOption entry.parent
  let left ← layout.titleOption entry.left
  let right ← layout.titleOption entry.right
  let neighbour ← layout.titleOption entry.neighbour
  let title ← layout.title index
  let children ← match entry.children with
    | [] => pure "None"
    | children => pure (Text.bracketed (← children.mapM layout.title))
  let gap := ", \n         "
  return title ++ " (depth= " ++ Number.showInt entry.depth ++ "):\n         parent: " ++ parent ++
    gap ++ "children: " ++ children ++ gap ++ "left sibling: " ++ left ++
    gap ++ "right sibling: " ++ right ++ gap ++ "left neighbour: " ++ neighbour

end Layout

end NodeFormula
