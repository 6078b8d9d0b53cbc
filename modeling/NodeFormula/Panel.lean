import NodeFormula.Value

/-!
# Panels

A panel is a list of blocks, and a block a list of widgets.  The application
draws a panel by a series of calls on numbered layouts: the panel itself has
number zero, and each block gets the next number when it is opened.
-/

namespace NodeFormula

inductive Widget
  | label (text : String)
  | property (name : String) (text : Option String)
  /-- A button for an operator, with settings that are passed to it. -/
  | button (operator : String) (icon text : Option String) (settings : List (String × Bool))
  | separator
  | shortcut (operator : String)
deriving DecidableEq, Repr

inductive BlockShape
  | column | row | box
deriving DecidableEq, Repr

def BlockShape.label : BlockShape → String
  | .column => "column"
  | .row => "row"
  | .box => "box"

inductive PanelPart
  | block (shape : BlockShape) (isAligned : Bool) (widgets : List Widget)
  | widget (widget : Widget)
  | setting (name : String) (value : Bool)
deriving DecidableEq, Repr

abbrev Panel := List PanelPart

/-- A call on a layout, with options in the order of their names. -/
structure LayoutCall where
  layout : Nat
  method : String
  arguments : List Value
  options : List (String × Value)

namespace LayoutCall

def set (layout : Nat) (name : String) (value : Bool) : LayoutCall :=
  ⟨layout, "set " ++ name, [.bool value], []⟩

def textOption (name : String) (text : Option String) : List (String × Value) :=
  (text.map fun text => (name, Value.text text)).toList

end LayoutCall

namespace Widget

def calls (layout : Nat) : Widget → List LayoutCall
  | .label text => [⟨layout, "label", [], [("text", .text text)]⟩]
  | .property name text => [⟨layout, "prop", [.text name], LayoutCall.textOption "text" text⟩]
  | .button operator icon text settings =>
    ⟨layout, "operator", [.text operator],
      LayoutCall.textOption "icon" icon ++ LayoutCall.textOption "text" text⟩ ::
      settings.map fun setting => LayoutCall.set layout setting.1 setting.2
  | .separator => [⟨layout, "separator", [], []⟩]
  | .shortcut operator =>
    [⟨layout, "context_pointer_set", [.text "keymap"], []⟩,
     ⟨layout, "draw_kmi", [.text operator], []⟩]

def properties (names : List String) : List Widget := names.map fun name => .property name none

end Widget

namespace Panel

def callsFrom : Nat → Panel → List LayoutCall
  | _, [] => []
  | next, .block shape isAligned widgets :: rest =>
    ⟨0, shape.label, [], if isAligned then [("align", .bool true)] else []⟩ ::
      widgets.flatMap (Widget.calls next) ++ callsFrom (next + 1) rest
  | next, .widget widget :: rest => widget.calls 0 ++ callsFrom next rest
  | next, .setting name value :: rest => LayoutCall.set 0 name value :: callsFrom next rest

def calls (panel : Panel) : List LayoutCall := panel.callsFrom 1

end Panel

end NodeFormula
