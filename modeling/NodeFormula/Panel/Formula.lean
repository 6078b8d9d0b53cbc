import NodeFormula.AddOn
import NodeFormula.Library

/-!
# Panels for formulas

The panel that adds a formula, the one for the functions from files, and the
preferences.
-/

namespace NodeFormula.Panel

open Widget

/-- How many functions of the user there are, and the buttons that load them. -/
def libraryWidgets (library : Library) : List Widget :=
  let load := "node.mf_load_custom_implementations"
  [.label (toString library.count ++ " custom implementations are currently loaded."),
   .button load (some "FILE_PARENT") none [],
   .button load (some "FILE_REFRESH") (some "Reload Custom Implementations")
    [("force_update", true)]]

def addFormula (hasActiveNode : Bool) : Panel :=
  [.block .column true
    ([label "Addon Preferences has more settings"] ++
      properties ["formula", "add_frame"] ++
      [separator, .button "node.mf_math_formula_add" none none [],
       if hasActiveNode then .button "node.mf_arrange_from_root" none none []
       else .label "--no active node--"])]

def files (library : Library) : Panel :=
  [.block .column true
    (libraryWidgets library ++
      [button "node.mf_generate_node_info" (some "FILE_REFRESH") none []])]

def colors : PanelPart :=
  .block .box false
    (.label "Syntax Highlighting" ::
      properties
        ["python_color", "number_color", "string_color", "default_color", "keyword_color",
         "type_color", "function_color", "error_color"])

def preferences (library : Library) (showsColors : Bool) : Panel :=
  [PanelPart.block .column false
    (properties ["font_size", "node_distance", "sibling_distance", "subtree_distance"] ++
      [separator, .property "custom_implementations_folder" none] ++ libraryWidgets library ++
      [separator, .property "show_colors" none])] ++
    (if showsColors then [colors] else []) ++
    [PanelPart.block .column false
      (.label "Keymaps:" :: AddOn.formula.shortcuts.map fun shortcut =>
        .shortcut shortcut.operator)]

end NodeFormula.Panel
