import NodeFormula.Builder
import NodeFormula.Editor.Completion
import NodeFormula.Selection

/-!
# Adding nodes and typing formulas

The operator that adds the nodes of a formula compiles it, runs it on the edited tree and, once
the application has measured the new nodes, arranges them.  The one for typing keeps an editor
open and runs the other in the end.  Both work on a desk: the library, the trees and the cursor.
-/

namespace NodeFormula

open Editor

variable [Evaluator]

structure NodeSize where
  width : Int
  height : Int
  inputHeight : Int
deriving DecidableEq, Repr

structure Desk where
  kind : String
  library : Library
  /-- The edited tree and the trees of node groups. -/
  forest : Forest
  cursor : Point
  /-- Whether the operator is run in the main part of the editor. -/
  isInWindow : Bool
  spacing : Spacing
  nodeSize : NodeSize
  requests : List Request

/-- Where nodes go when the operator is not run in the main part of the editor. -/
def viewCenter : Point := ⟨7, 9⟩

/-- What remains of adding nodes until they are arranged. -/
structure Addition where
  groups : List Nat
  /-- The nodes that nothing uses, of the formula and of each group. -/
  roots : List (List NodeRef)

namespace Desk

abbrev Act := EStateM Fault Desk

def request (request : Request) : Act Unit :=
  modify fun desk => { desk with requests := desk.requests ++ [request] }

def storeCursor (mouse : Point) : Act Unit :=
  modify fun desk => { desk with cursor := if desk.isInWindow then mouse else viewCenter }

def compile (formula : String) : Act Compiler.Outcome := do
  let desk ← get
  let (library, outcome) := desk.library.compile desk.kind formula
  set { desk with library }
  match outcome with
  | .ok outcome => return outcome
  | .error fault => throw fault

/-- Run operations on the edited tree; what was built before a fault stays. -/
def build (operations : List Operation) : Act Builder := do
  let desk ← get
  match (Builder.runAll operations).run (.new desk.forest) with
  | .ok _ builder =>
    set { desk with forest := builder.forest }
    return builder
  | .error fault builder =>
    set { desk with forest := builder.forest }
    throw fault

def addFrame (label : String) (nodes : List NodeRef) : Act Unit := do
  let desk ← get
  let frame := (desk.forest.nodesOf 0).length
  let forest := desk.forest.modify 0 fun tree =>
    tree.addNode { tree.freshNode "NodeFrame" with label }
  let enclose := fun (forest : Forest) ref =>
    forest.modifyNode ref fun node => { node with parent := some frame }
  set { desk with forest := nodes.foldl enclose forest }

/-- Build the nodes of a formula, in a frame if wished, and list the trees with their nodes. -/
def place (operations : List Operation) (withFrame : Bool) (formula : String) :
    Act (Option Addition) := do
  let builder ← build operations
  if withFrame && !builder.added.isEmpty then addFrame formula builder.added
  let forest := (← get).forest
  let groups := builder.groups.map (·.2)
  let inner := groups.map fun group => (forest.nodesOf group).filter forest.isUnused
  return some ⟨groups, builder.added.filter forest.isUnused :: inner⟩

def addNodes (formula : String) (withFrame : Bool) : Act (Option Addition) := do
  let outcome ← compile formula
  if !outcome.accepted then return none
  place outcome.operations withFrame formula

/-- Start to add the nodes of a formula; they are arranged later if there are any. -/
def invokeAdd (formula : String) (withFrame : Bool) (mouse : Point) :
    Act (OperatorResult × Addition) := do
  storeCursor mouse
  match ← addNodes formula withFrame with
  | none => throw (.noAttribute "MF_OT_math_formula_add" "root_nodes")
  | some addition =>
    match addition.roots with
    | [[]] => return (.finished, addition)
    | _ =>
      request .addModalHandler
      return (.runningModal, addition)

def arrange (tree : Nat) (roots : List NodeRef) (cursor : Point) : Act Unit := do
  let desk ← get
  let layout := Layout.new desk.spacing (desk.forest.linksOf tree) desk.forest
  match (Layout.placeNodes (.several roots) (some cursor)).run layout with
  | .ok _ layout => set { desk with forest := layout.forest }
  | .error fault layout =>
    set { desk with forest := layout.forest }
    throw fault

def groupCursor : Point := ⟨-100, 100⟩

def arrangeGroups : List Nat → List (List NodeRef) → Act Unit
  | group :: groups, roots :: rest => do
    arrange group roots groupCursor
    arrangeGroups groups rest
  | _, _ => return ()

/-- Arrange the nodes that were added, once they have been measured. -/
def arrangeAddition (addition : Addition) (useMouse : Bool) : Act OperatorResult := do
  let desk ← get
  let first := addition.roots.headD []
  match first with
  | [] => throw .listIndex
  | root :: _ =>
    if ((desk.forest.node? root).map (·.dimensions.x)).getD 0 = 0 then return .runningModal
    arrange 0 first (if useMouse then desk.cursor else ⟨0, 0⟩)
    arrangeGroups addition.groups (addition.roots.drop 1)
    return .finished

def measureTree (size : NodeSize) (tree : NodeTree) : NodeTree :=
  { tree with nodes := tree.nodes.map fun node =>
      { node with dimensions :=
        ⟨size.width, size.height + size.inputHeight * node.inputs.length⟩ } }

def measure (groups : List Nat) : Act Unit :=
  modify fun desk =>
    let measured := fun (forest : Forest) tree => forest.modify tree (measureTree desk.nodeSize)
    { desk with forest := (0 :: groups).foldl measured desk.forest }

def add (formula : String) (withFrame useMouse : Bool) (mouse : Point) :
    Act (List OperatorResult) := do
  let (result, addition) ← invokeAdd formula withFrame mouse
  if result = .runningModal then
    measure addition.groups
    return [result, ← arrangeAddition addition useMouse]
  else return [result]

end Desk

structure Event where
  type : String
  value : String
  unicode : String
  ctrl : Bool
  alt : Bool
  mouse : Point
deriving DecidableEq, Repr

/-- The state of typing a formula. -/
structure Session where
  desk : Desk
  editor : Editor
  /-- The formulas that were entered, and which one is shown next. -/
  history : List String
  historyIndex : Nat
  fontSize : Int
  clipboard : String
  /-- Whether the editor is being dragged, and from where. -/
  isDragged : Bool
  dragMouse : Point
  dragPos : Point

namespace Session

abbrev Typing := EStateM Fault Session

/-- Start typing; without a history it begins with the formula of the scene. -/
def start (desk : Desk) (history : List String) (historyIndex : Nat) (formula clipboard : String)
    (fontSize : Int) (mouse : Point) : Session :=
  let desk := { desk with requests := desk.requests ++ [.addModalHandler] }
  ⟨desk, .new mouse, if history.isEmpty then [formula] else history, historyIndex, fontSize,
    clipboard, false, ⟨0, 0⟩, mouse⟩

def onDesk {α : Type} (act : Desk.Act α) : Typing (Except Fault α) := do
  let session ← get
  match act.run session.desk with
  | .ok value desk =>
    set { session with desk }
    return .ok value
  | .error fault desk =>
    set { session with desk }
    return .error fault

def edit (change : Editor → Editor) : Typing Unit :=
  modify fun session => { session with editor := change session.editor }

def editStep (step : Editor.Edit Unit) : Typing Unit := do
  let session ← get
  match step.run session.editor with
  | .ok _ editor => set { session with editor }
  | .error fault editor =>
    set { session with editor }
    throw fault

def request (request : Request) : Typing Unit := do
  let _ ← onDesk (Desk.request request)

def internalError : Request :=
  .report "ERROR" "Internal error, please report as a bug (see console)"

def addMouse : Point := ⟨11, 22⟩

def enter : Typing OperatorResult := do
  let formula := String.ofList (← get).editor.text
  match ← onDesk (Desk.compile formula) with
  | .error _ =>
    request internalError
    request .removeDrawHandler
    return .cancelled
  | .ok outcome =>
    if !outcome.accepted then
      edit fun editor => { editor with errors := outcome.reports }
      request (.report "WARNING" "Compile errors, could not create node tree")
      return .runningModal
    request .removeDrawHandler
    modify fun session => { session with
      history := session.history ++ [formula], historyIndex := session.historyIndex + 1 }
    request (.operator "node.select_all" [("action", .text "DESELECT")])
    modify fun session => { session with desk := { session.desk with
      forest := session.desk.forest.modify 0 NodeTree.deselectAll } }
    request ⟨"node.mf_math_formula_add", [.text "INVOKE_DEFAULT"],
      some [("use_mouse_location", .bool true)]⟩
    match ← onDesk (Desk.add formula false true addMouse) with
    | .error _ => request internalError
    | .ok _ => pure ()
    return .finished

def checkFormula : Typing OperatorResult := do
  match ← onDesk (Desk.compile (String.ofList (← get).editor.text)) with
  | .error _ =>
    request internalError
    request .removeDrawHandler
    return .cancelled
  | .ok outcome =>
    edit fun editor => { editor with errors := outcome.reports }
    if outcome.accepted then request (.report "INFO" "No errors detected")
    else request (.report "WARNING" "Compilation failed")
    return .runningModal

def showHistory : Typing Unit := do
  let session ← get
  match session.history[session.historyIndex]? with
  | none => throw .listIndex
  | some formula => editStep (replaceText formula.toList)

/-- After an edit the history starts again with the newest formula. -/
def leaveHistory : Typing Unit :=
  modify fun session => { session with historyIndex := session.history.length - 1 }

def leastFontSize : Int := 8

def drag (mouse : Point) : Typing Unit :=
  modify fun session => { session with editor := { session.editor with pos :=
    ⟨session.dragPos.x + mouse.x - session.dragMouse.x,
     session.dragPos.y + mouse.y - session.dragMouse.y⟩ } }

def isTyped (event : Event) : Bool :=
  event.unicode ≠ "" && event.unicode.toList.all Text.isPrintable

/-- Take an event that only concerns the editor and its place. -/
def handleEdit (event : Event) : Typing Unit := do
  let session ← get
  match event.type with
  | "RET" =>
    editStep newLine
    leaveHistory
  | "MIDDLEMOUSE" =>
    set { session with isDragged := true, dragMouse := event.mouse, dragPos := session.editor.pos }
  | "WHEELUPMOUSE" => set { session with fontSize := session.fontSize + 1 }
  | "WHEELDOWNMOUSE" => set { session with fontSize := max leastFontSize (session.fontSize - 1) }
  | "LEFT_ARROW" => edit left
  | "RIGHT_ARROW" => edit right
  | "HOME" => edit home
  | "END" => edit toEnd
  | "UP_ARROW" =>
    if event.ctrl then
      showHistory
      modify fun session => { session with historyIndex := session.historyIndex - 1 }
    else edit up
  | "DOWN_ARROW" =>
    if event.ctrl then
      showHistory
      modify fun session => { session with
        historyIndex := min (session.historyIndex + 1) (session.history.length - 1) }
    else edit down
  | "BACK_SPACE" =>
    edit deleteBefore
    leaveHistory
  | "DEL" =>
    edit deleteAfter
    leaveHistory
  | type =>
    if type = "MOUSEMOVE" && session.isDragged then drag event.mouse
    else if event.ctrl && type = "V" then
      editStep (paste session.clipboard.toList)
      leaveHistory
    else if isTyped event then
      edit (·.type event.unicode.toList)
      leaveHistory
    else if type = "TAB" then
      editStep (complete session.desk.library session.desk.kind)

def handle (event : Event) : Typing OperatorResult := do
  if event.value = "RELEASE" then
    modify fun session => { session with isDragged := false }
    return .runningModal
  else if event.type = "RET" && event.ctrl then enter
  else if event.type = "ESC" || event.type = "RIGHTMOUSE" then
    request .removeDrawHandler
    return .cancelled
  else if event.alt && event.type = "C" then checkFormula
  else
    handleEdit event
    return .runningModal

end Session

end NodeFormula
